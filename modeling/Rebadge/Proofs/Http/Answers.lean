import Rebadge.Proofs.Http

/-!
# What requests end with

How a request ends is a matter of the network alone: whether it answers, where its redirects lead,
and the status of the last answer. `Follows`, `Gets` and `GetsText` say it case by case, for the
redirects, a URL and a text; each is exactly the outcome of its act (`outcome_follow`,
`outcome_get`, `outcome_getText`), from every workspace.
-/

namespace Rebadge.Http

open Act (outcome)

variable {net : Network} {n : Nat} {u v : Url} {r : Response}

/-! ## One request -/

theorem exchange_unsupported (h : isSupported u = false) (w : Workspace) :
    exchange net u w = .error (.http (.unsupportedScheme u.toText)) w := by
  unfold exchange
  simp only [h, Bool.not_false, if_true]
  rfl

theorem exchange_eq (h : isSupported u = true) : exchange net u =
    match net.exchange (requestFor u) with
    | .error causes => throw (.http (.notSent u.toText causes))
    | .ok r => do
      modify fun w => { w with requests := w.requests ++ [requestFor u] }
      return r := by
  unfold exchange
  simp only [h, Bool.not_true]
  rfl

theorem exchange_unanswered {causes : List String} (h : isSupported u = true)
    (hnone : net.exchange (requestFor u) = .error causes) (w : Workspace) :
    exchange net u w = .error (.http (.notSent u.toText causes)) w := by
  rw [exchange_eq h, hnone]
  rfl

theorem exchange_answered (h : isSupported u = true) (hr : net.exchange (requestFor u) = .ok r)
    (w : Workspace) : exchange net u w = .ok r (Act.asked w [requestFor u]) := by
  rw [exchange_eq h, hr]
  rfl

/-! ## Redirects -/

/-- **How redirects end** that are followed from a URL, if so many may be: with the last URL and its
answer, or with a failure. -/
inductive Follows (net : Network) : Nat → Url → Except Failure (Url × Response) → Prop where
  | unsupported {n : Nat} {u : Url} (h : isSupported u = false) :
    Follows net n u (.error (.http (.unsupportedScheme u.toText)))
  | unanswered {n : Nat} {u : Url} {causes : List String} (h : isSupported u = true)
    (hnone : net.exchange (requestFor u) = .error causes) :
    Follows net n u (.error (.http (.notSent u.toText causes)))
  | arrived {n : Nat} {u : Url} {r : Response} (h : isSupported u = true)
    (hr : net.exchange (requestFor u) = .ok r) (hlast : redirect? u r = none) :
    Follows net n u (.ok (u, r))
  | tooMany {u v : Url} {r : Response} (h : isSupported u = true)
    (hr : net.exchange (requestFor u) = .ok r) (hnext : redirect? u r = some v) :
    Follows net 0 u (.error (.http (.tooManyRedirects u.toText)))
  | redirected {n : Nat} {u v : Url} {r : Response} {x : Except Failure (Url × Response)}
    (h : isSupported u = true) (hr : net.exchange (requestFor u) = .ok r)
    (hnext : redirect? u r = some v) (hx : Follows net n v x) : Follows net (n + 1) u x

theorem exists_follows (net : Network) (n : Nat) (u : Url) : ∃ x, Follows net n u x := by
  have hstep : ∀ n u, (∀ r v, isSupported u = true → net.exchange (requestFor u) = .ok r →
      redirect? u r = some v → ∃ x, Follows net n u x) → ∃ x, Follows net n u x := by
    intro n u honward
    cases h : isSupported u with
    | false => exact ⟨_, .unsupported h⟩
    | true =>
      cases hr : net.exchange (requestFor u) with
      | error causes => exact ⟨_, .unanswered h hr⟩
      | ok r =>
        cases hnext : redirect? u r with
        | none => exact ⟨_, .arrived h hr hnext⟩
        | some v => exact honward r v h hr hnext
  induction n generalizing u with
  | zero => exact hstep 0 u fun r v h hr hnext => ⟨_, .tooMany h hr hnext⟩
  | succ n ih =>
    refine hstep (n + 1) u fun r v h hr hnext => ?_
    obtain ⟨x, hx⟩ := ih v
    exact ⟨x, .redirected h hr hnext hx⟩

theorem Follows.outcome_eq {x : Except Failure (Url × Response)} (h : Follows net n u x)
    (w : Workspace) : outcome (follow net n u) w = x := by
  induction h generalizing w with
  | unsupported h =>
    rw [follow_eq]
    exact Act.outcome_bind_of_error (exchange_unsupported h w)
  | unanswered h hnone =>
    rw [follow_eq]
    exact Act.outcome_bind_of_error (exchange_unanswered h hnone w)
  | arrived h hr hlast =>
    rw [follow_eq, Act.outcome_bind_of_ok (exchange_answered h hr w), hlast]
    rfl
  | tooMany h hr hnext =>
    rw [follow_eq, Act.outcome_bind_of_ok (exchange_answered h hr w), hnext]
    rfl
  | redirected h hr hnext hx ih =>
    rw [follow_eq, Act.outcome_bind_of_ok (exchange_answered h hr w), hnext]
    exact ih _

/-- A relation that says how an act ends, and that some case of applies, says just that. -/
theorem outcome_iff {α : Type} {act : Act α} {ends : Except Failure α → Prop}
    (hends : ∀ {x}, ends x → ∀ w, outcome act w = x) (hsome : ∃ x, ends x) (w : Workspace)
    (x : Except Failure α) : outcome act w = x ↔ ends x := by
  obtain ⟨y, hy⟩ := hsome
  constructor
  · rintro rfl
    rwa [hends hy w]
  · exact fun hx => hends hx w

theorem outcome_follow (w : Workspace) (x : Except Failure (Url × Response)) :
    outcome (follow net n u) w = x ↔ Follows net n u x :=
  outcome_iff (fun h => h.outcome_eq) (exists_follows net n u) w x

/-! ## Statuses -/

/-- **How a request for a URL ends.** The last answer counts if its status is below 400, or from 600
on. -/
inductive Gets (net : Network) (u : Url) : Except Failure Response → Prop where
  | failed {e : Failure} (h : Follows net maxRedirects (withoutUser u) (.error e)) :
    Gets net u (.error e)
  | refused {v : Url} {r : Response} (h : Follows net maxRedirects (withoutUser u) (.ok (v, r)))
    (hstatus : 400 ≤ r.status ∧ r.status < 600) :
    Gets net u (.error (.http (.status r.status r.reason v.toText)))
  | delivered {v : Url} {r : Response} (h : Follows net maxRedirects (withoutUser u) (.ok (v, r)))
    (hstatus : r.status < 400 ∨ 600 ≤ r.status) : Gets net u (.ok r)

theorem isError_iff {status : Nat} : isError status = true ↔ 400 ≤ status ∧ status < 600 := by
  unfold isError
  rw [Bool.and_eq_true, decide_eq_true_iff, decide_eq_true_iff]

theorem exists_gets (net : Network) (u : Url) : ∃ x, Gets net u x := by
  obtain ⟨x, hx⟩ := exists_follows net maxRedirects (withoutUser u)
  match x, hx with
  | .error e, hx => exact ⟨_, .failed hx⟩
  | .ok (v, r), hx =>
    by_cases hstatus : 400 ≤ r.status ∧ r.status < 600
    · exact ⟨_, .refused hx hstatus⟩
    · exact ⟨_, .delivered hx (by omega)⟩

theorem Gets.outcome_eq {x : Except Failure Response} (h : Gets net u x) (w : Workspace) :
    outcome (get net u) w = x := by
  unfold get
  cases h with
  | failed h => exact Act.outcome_bind_of_error (Act.eq_of_outcome_error (h.outcome_eq w))
  | refused h hstatus =>
    rw [Act.outcome_bind_of_ok (Act.eq_of_outcome_ok (h.outcome_eq w))]
    simp only [isError_iff.2 hstatus, if_true]
    rfl
  | @delivered v r h hstatus =>
    have hnot : isError r.status = false := by
      rw [Bool.eq_false_iff, ne_eq, isError_iff]
      omega
    rw [Act.outcome_bind_of_ok (Act.eq_of_outcome_ok (h.outcome_eq w))]
    simp only [hnot]
    rfl

theorem outcome_get (w : Workspace) (x : Except Failure Response) :
    outcome (get net u) w = x ↔ Gets net u x :=
  outcome_iff (fun h => h.outcome_eq) (exists_gets net u) w x

/-- **How a request for a text ends.** -/
inductive GetsText (net : Network) (text : String) : Except Failure Response → Prop where
  | noUrl {fault : Url.Fault} (h : Url.parse text = .error fault) :
    GetsText net text (.error (.http (.noUrl fault)))
  | sent {u : Url} {x : Except Failure Response} (h : Url.parse text = .ok u) (hx : Gets net u x) :
    GetsText net text x

theorem exists_getsText (net : Network) (text : String) : ∃ x, GetsText net text x := by
  cases h : Url.parse text with
  | error fault => exact ⟨_, .noUrl h⟩
  | ok u =>
    obtain ⟨x, hx⟩ := exists_gets net u
    exact ⟨x, .sent h hx⟩

theorem GetsText.outcome_eq {text : String} {x : Except Failure Response} (h : GetsText net text x)
    (w : Workspace) : outcome (getText net text) w = x := by
  unfold getText
  cases h with
  | noUrl h =>
    rw [h]
    rfl
  | sent h hx =>
    rw [h]
    exact hx.outcome_eq w

theorem outcome_getText {text : String} (w : Workspace) (x : Except Failure Response) :
    outcome (getText net text) w = x ↔ GetsText net text x :=
  outcome_iff (fun h => h.outcome_eq) (exists_getsText net text) w x

end Rebadge.Http
