import Rebadge.Proofs.Outcome
import Rebadge.Run

/-!
# Requests change no file

An act that only asks adds requests to the journal and leaves all else; which requests these are and
how it ends does not depend on the workspace (`Act.Asks`). Finding the artifacts of a release is
such an act (`Run.asks_resolve`), and so is each request of a download (`Http.asks_getText`).
-/

namespace Rebadge

namespace Act

variable {α β : Type} {act : Act α}

/-- The workspace with more requests. -/
def asked (w : Workspace) (requests : List Request) : Workspace :=
  { w with requests := w.requests ++ requests }

/-- The act only asks, and ends alike everywhere. -/
def Asks (act : Act α) : Prop :=
  ∃ (x : Except Failure α) (requests : List Request), ∀ w, act w = ofExcept x (asked w requests)

theorem asks_ofExcept (x : Except Failure α) : Asks (ofExcept x) :=
  ⟨x, [], fun w => by rw [asked, List.append_nil]⟩

theorem asks_pure (a : α) : Asks (pure a : Act α) := asks_ofExcept (.ok a)

theorem asks_throw (e : Failure) : Asks (throw e : Act α) := asks_ofExcept (.error e)

theorem Asks.bind {f : α → Act β} (h : Asks act) (hf : ∀ a, Asks (f a)) : Asks (act >>= f) := by
  obtain ⟨x, requests, hact⟩ := h
  cases x with
  | error e => exact ⟨.error e, requests, fun w => bind_of_error (hact w)⟩
  | ok a =>
    obtain ⟨y, more, hy⟩ := hf a
    refine ⟨y, requests ++ more, fun w => ?_⟩
    rw [bind_of_ok (hact w), hy, asked, asked, asked, List.append_assoc]

theorem asks_journal (requests : List Request) :
    Asks (modify fun w => asked w requests : Act PUnit) :=
  ⟨.ok ⟨⟩, requests, fun _ => rfl⟩

theorem Asks.of_ok (h : Asks act) {w w₁ : Workspace} {a : α} (hok : act w = .ok a w₁) :
    (∃ requests, w₁ = asked w requests) ∧ ∀ w', ∃ w₁', act w' = .ok a w₁' := by
  obtain ⟨x, requests, hact⟩ := h
  rw [hact] at hok
  cases x with
  | ok b =>
    obtain ⟨rfl, rfl⟩ := pure_ok.1 hok
    exact ⟨⟨requests, rfl⟩, fun w' => ⟨_, hact w'⟩⟩
  | error e => exact absurd hok throw_ok

theorem Asks.of_error (h : Asks act) {w w₁ : Workspace} {e : Failure}
    (herror : act w = .error e w₁) :
    (∃ requests, w₁ = asked w requests) ∧ ∀ w', ∃ w₁', act w' = .error e w₁' := by
  obtain ⟨x, requests, hact⟩ := h
  rw [hact] at herror
  cases x with
  | ok b => exact absurd herror (by rintro ⟨⟩)
  | error e' =>
    obtain ⟨rfl, rfl⟩ := EStateM.Result.error.inj herror
    exact ⟨⟨requests, rfl⟩, fun w' => ⟨_, hact w'⟩⟩

theorem Asks.keeps {P : Workspace → Prop} (h : Asks act)
    (hP : ∀ w requests, P w → P (asked w requests)) : Keeps P act := by
  obtain ⟨x, requests, hact⟩ := h
  intro w hw
  unfold leaves
  rw [hact]
  cases x with
  | ok a => exact hP w requests hw
  | error e => exact hP w requests hw

end Act

open Act (Asks)

namespace Http

theorem asks_exchange (net : Network) (u : Url) : Asks (exchange net u) := by
  unfold exchange
  dsimp only
  split
  · exact (Act.asks_throw _).bind fun _ => by
      cases net.exchange (requestFor u) with
      | error causes => exact Act.asks_throw _
      | ok r => exact (Act.asks_journal [requestFor u]).bind fun _ => Act.asks_pure r
  · cases net.exchange (requestFor u) with
    | error causes => exact Act.asks_throw _
    | ok r => exact (Act.asks_journal [requestFor u]).bind fun _ => Act.asks_pure r

theorem follow_zero (net : Network) (u : Url) : follow net 0 u = exchange net u >>= fun r =>
    match redirect? u r with
    | none => pure (u, r)
    | some _ => throw (.http (.tooManyRedirects u.toText)) := by
  delta follow
  refine congrArg (exchange net u >>= ·) (funext fun r => ?_)
  cases redirect? u r <;> rfl

theorem follow_succ (net : Network) (more : Nat) (u : Url) : follow net (more + 1) u =
    exchange net u >>= fun r =>
    match redirect? u r with
    | none => pure (u, r)
    | some next => follow net more next := by
  delta follow
  refine congrArg (exchange net u >>= ·) (funext fun r => ?_)
  cases redirect? u r <;> rfl

/-- What is done about a redirect, if so many may still be followed. -/
def onward (net : Network) : Nat → Url → Url → Act (Url × Response)
  | 0, u, _ => throw (.http (.tooManyRedirects u.toText))
  | more + 1, _, next => follow net more next

theorem follow_eq (net : Network) (more : Nat) (u : Url) : follow net more u =
    exchange net u >>= fun r =>
      match redirect? u r with
      | none => pure (u, r)
      | some next => onward net more u next := by
  cases more with
  | zero => exact follow_zero net u
  | succ more => exact follow_succ net more u

theorem asks_follow (net : Network) (more : Nat) (u : Url) : Asks (follow net more u) := by
  have hstep : ∀ more u, (∀ next, Asks (onward net more u next)) → Asks (follow net more u) := by
    intro more u honward
    rw [follow_eq]
    refine (asks_exchange net u).bind fun r => ?_
    cases redirect? u r with
    | none => exact Act.asks_pure _
    | some next => exact honward next
  induction more generalizing u with
  | zero => exact hstep 0 u fun next => Act.asks_throw _
  | succ more ih => exact hstep (more + 1) u ih

theorem asks_get (net : Network) (u : Url) : Asks (get net u) := by
  unfold get
  refine (asks_follow net _ _).bind fun ⟨u, r⟩ => ?_
  dsimp only
  split
  · exact (Act.asks_throw _).bind fun _ => Act.asks_pure _
  · exact Act.asks_pure _

theorem asks_getText (net : Network) (text : String) : Asks (getText net text) := by
  unfold getText
  cases Url.parse text with
  | error fault => exact Act.asks_throw _
  | ok u => exact asks_get net u

end Http

theorem Run.asks_resolve (s : Setting) (channel : Channel) : Asks (resolve s channel) := by
  cases channel with
  | release version =>
    exact (Act.asks_ofExcept _).bind fun url => (Http.asks_get _ url).bind fun r =>
        (Act.asks_ofExcept _).bind fun _ =>
      Act.asks_pure _
  | nightly =>
    exact (Act.asks_ofExcept _).bind fun url => (Http.asks_get _ url).bind fun r =>
      Act.asks_ofExcept _

end Rebadge
