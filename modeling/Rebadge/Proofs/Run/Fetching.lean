import Rebadge.Proofs.Http.Answers
import Rebadge.Proofs.Name

/-!
# Finding and downloading artifacts

What a channel lists is read off the answer to one request (`Resolves`, which is the outcome of
`resolve` by `outcome_resolve`). An artifact is downloaded unless its filename is not a single name,
its URL gets no answer that counts (`Unavailable`), or the file cannot be written (`Undelivered`);
nothing else fails (`download_ok`, `download_error`).
-/

namespace Rebadge.Run

open Act (outcome)
open Rebadge.Path (IsPlain)
open Http (Gets GetsText)

variable {s : Setting} {a : Artifact} {channel : Channel} {w w' : Workspace}

/-! ## Finding -/

/-- The address that the pages of packages are below. -/
def pages (c : Config) : Channel → String
  | .release _ => c.indexUrl
  | .nightly => c.nightlyUrl

/-- The artifacts that an answer lists for a channel. -/
def listed (c : Config) (url : Url) (r : Response) : Channel → Except Failure (List Artifact)
  | .release version => (Index.parse (Http.bodyText r)).map (Release.select · c.package version)
  | .nightly => (Release.ofPage (Http.bodyText r) url).mapError .url

/-- **How finding artifacts ends.** -/
inductive Resolves (s : Setting) (channel : Channel) : Except Failure (List Artifact) → Prop where
  | noUrl {e : Failure} (h : listingUrl s.config (pages s.config channel) = .error e) :
    Resolves s channel (.error e)
  | failed {url : Url} {e : Failure} (h : listingUrl s.config (pages s.config channel) = .ok url)
    (hget : Gets s.network url (.error e)) : Resolves s channel (.error e)
  | answered {url : Url} {r : Response} (h : listingUrl s.config (pages s.config channel) = .ok url)
    (hget : Gets s.network url (.ok r)) : Resolves s channel (listed s.config url r channel)

theorem resolve_eq (s : Setting) (channel : Channel) : resolve s channel =
    Act.ofExcept (listingUrl s.config (pages s.config channel)) >>= fun url =>
      Http.get s.network url >>= fun r => Act.ofExcept (listed s.config url r channel) := by
  cases channel with
  | nightly =>
    unfold resolve pages listed
    rfl
  | release version =>
    unfold resolve pages listed
    refine bind_congr fun url => bind_congr fun r => ?_
    cases Index.parse (Http.bodyText r) <;> rfl

theorem Resolves.outcome_eq {x : Except Failure (List Artifact)} (h : Resolves s channel x)
    (w : Workspace) : outcome (resolve s channel) w = x := by
  rw [resolve_eq]
  cases h with
  | noUrl h =>
    exact Act.outcome_bind_of_error (Act.eq_of_outcome_error (h ▸ Act.outcome_ofExcept _ w))
  | failed h hget =>
    rw [Act.outcome_bind_of_ok (Act.ofExcept_ok.2 ⟨h, rfl⟩)]
    exact Act.outcome_bind_of_error (Act.eq_of_outcome_error (hget.outcome_eq w))
  | answered h hget =>
    rw [Act.outcome_bind_of_ok (Act.ofExcept_ok.2 ⟨h, rfl⟩),
      Act.outcome_bind_of_ok (Act.eq_of_outcome_ok (hget.outcome_eq w))]
    exact Act.outcome_ofExcept _ _

theorem exists_resolves (s : Setting) (channel : Channel) : ∃ x, Resolves s channel x := by
  cases h : listingUrl s.config (pages s.config channel) with
  | error e => exact ⟨_, .noUrl h⟩
  | ok url =>
    obtain ⟨x, hx⟩ := Http.exists_gets s.network url
    cases x with
    | error e => exact ⟨_, .failed h hx⟩
    | ok r => exact ⟨_, .answered h hx⟩

theorem outcome_resolve (w : Workspace) (x : Except Failure (List Artifact)) :
    outcome (resolve s channel) w = x ↔ Resolves s channel x :=
  Http.outcome_iff (fun h => h.outcome_eq) (exists_resolves s channel) w x

/-! ## Downloading -/

/-- **Why an artifact cannot be fetched.** -/
inductive Unavailable (s : Setting) (a : Artifact) : Failure → Prop where
  | badName (h : ¬ IsPlain a.filename) : Unavailable s a (.malformed a.filename .notAFileName)
  | denied {e : Failure} (h : GetsText s.network a.url (.error e)) : Unavailable s a e

/-- Why its download fails: also what was fetched may not be written. -/
inductive Undelivered (s : Setting) (a : Artifact) : Failure → Prop where
  | unavailable {e : Failure} (h : Unavailable s a e) : Undelivered s a e
  | unwritten {r : Response} {d : Disk} {e : IoError} (hr : GetsText s.network a.url (.ok r))
    (h : d.write (Path.join s.config.distDir a.filename) r.body = .error e) :
    Undelivered s a (.io e)

theorem download_ok {path : String} : download s a w = .ok path w' ↔
    IsPlain a.filename ∧ path = Path.join s.config.distDir a.filename ∧
      ∃ r w₁ d, Http.getText s.network a.url w = .ok r w₁ ∧ w₁.disk.write path r.body = .ok d ∧
        w' = { w₁ with disk := d } := by
  unfold download
  simp only [Act.bind_ok, Act.ofExcept_ok, Act.change_ok, Act.pure_ok]
  constructor
  · rintro ⟨_, _, ⟨hpath, rfl⟩, r, w₁, hr, _, _, ⟨d, hd, rfl⟩, rfl, rfl⟩
    obtain ⟨rfl, hplain⟩ := Release.distPath_ok hpath
    exact ⟨hplain, rfl, r, w₁, d, hr, hd, rfl⟩
  · rintro ⟨hplain, rfl, r, w₁, d, hr, hd, rfl⟩
    exact ⟨_, w, ⟨Release.distPath_eq hplain _, rfl⟩, r, w₁, hr, (), _, ⟨d, hd, rfl⟩, rfl, rfl⟩

theorem download_error {e : Failure} (h : download s a w = .error e w') : Undelivered s a e := by
  unfold download at h
  rcases Act.bind_error.1 h with hpath | ⟨path, w₁, hplaced, h⟩
  · obtain ⟨hpath, -⟩ := Act.ofExcept_error.1 hpath
    have hplain : ¬ IsPlain a.filename := fun hplain => by
      rw [Release.distPath_eq hplain] at hpath
      exact absurd hpath (by simp)
    rw [Release.distPath_error hplain, Except.error.injEq] at hpath
    exact hpath ▸ .unavailable (.badName hplain)
  obtain ⟨hpath, rfl⟩ := Act.ofExcept_ok.1 hplaced
  obtain ⟨rfl, -⟩ := Release.distPath_ok hpath
  rcases Act.bind_error.1 h with hget | ⟨r, w₂, hget, h⟩
  · exact .unavailable (.denied ((Http.outcome_getText w _).1 (Act.outcome_of_error hget)))
  have hr := (Http.outcome_getText w _).1 (Act.outcome_of_ok hget)
  rcases Act.bind_error.1 h with hchange | ⟨_, _, -, h⟩
  · obtain ⟨e', hwrite, rfl, -⟩ := Act.change_error.1 hchange
    exact .unwritten hr hwrite
  · exact absurd h (by rintro ⟨⟩)

theorem Unavailable.download {e : Failure} (h : Unavailable s a e) (w : Workspace) :
    ∃ e' w', download s a w = .error e' w' := by
  cases hdownload : Run.download s a w with
  | error e' w' => exact ⟨e', w', rfl⟩
  | ok path w' =>
    obtain ⟨hplain, -, r, w₁, d, hr, -⟩ := download_ok.1 hdownload
    cases h with
    | badName h => exact absurd hplain h
    | denied h =>
      have houtcome := h.outcome_eq w
      rw [outcome, hr] at houtcome
      exact absurd houtcome (by simp)

end Rebadge.Run
