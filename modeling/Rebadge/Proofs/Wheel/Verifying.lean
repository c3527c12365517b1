import Mathlib.Data.List.Forall2
import Rebadge.Proofs.Digest
import Rebadge.Proofs.Wheel.Scanning
import Rebadge.Wheel.Validation

/-!
# When a wheel is valid

The validation at the end passes exactly if every path is sound: the record has an entry for it, the
archive has a readable file of its name, and digest and size are those of the file (`verify_ok`).
-/

namespace Rebadge

namespace Wheel

variable {w w' : Workspace} {path : String} {entries : List (Zip.Entry Content)} {record : Record}

/-- A path with an entry in the record and a file in the archive that agree. -/
def Sound (entries : List (Zip.Entry Content)) (record : Record) (p : String) : Prop :=
  ∃ row file, record.find? p = some row ∧ Zip.find? (entries.filter (·.isFile)) p = some file ∧
      file.intact = true ∧
    digestMatches row.digest file.data.image = .ok true ∧ row.size = some file.data.image.length

theorem defect?_ok {p : String} : defect? entries record p = .ok none ↔ Sound entries record p := by
  unfold defect? Sound
  cases record.find? p with
  | none => simp
  | some row =>
    cases Zip.find? (entries.filter (·.isFile)) p with
    | none => simp
    | some file =>
      simp only [except_bind_ok, except_mapError_ok, Option.some.injEq,
        exists_and_left, exists_eq_left']
      unfold fileDefect? Zip.Entry.read
      cases file.intact with
      | false => simp
      | true =>
        simp only [if_true, Except.ok.injEq, exists_eq_left', true_and,
          except_bind_ok, except_mapError_ok]
        constructor
        · rintro ⟨matched, hmatched, hok⟩
          cases matched with
          | false => exact absurd hok (by simp [pure, Except.pure])
          | true =>
            rw [if_pos rfl] at hok
            refine ⟨hmatched, Decidable.byContradiction fun hsize => ?_⟩
            rw [if_neg hsize] at hok
            exact absurd hok (by simp [pure, Except.pure])
        · rintro ⟨hmatched, hsize⟩
          exact ⟨true, hmatched, by rw [if_pos rfl, if_pos hsize]; rfl⟩

theorem defects_ok {paths : List String} :
    defects entries record paths = .ok [] ↔ ∀ p ∈ paths, Sound entries record p := by
  have hmap : ∀ {x : Except Failure (List (Option Defect))},
      x.map (·.filterMap id) = .ok [] ↔ ∃ r, x = .ok r ∧ ∀ d ∈ r, d = none := by
    intro x
    cases x <;> simp [Except.map]
  unfold defects
  simp only [hmap, except_mapM_ok, ← defect?_ok]
  constructor
  · rintro ⟨r, hr, hnone⟩
    induction hr with
    | nil => simp
    | cons hfirst _ ih =>
      rw [List.forall_mem_cons] at hnone ⊢
      rw [hnone.1] at hfirst
      exact ⟨hfirst, ih hnone.2⟩
  · intro h
    refine ⟨paths.map fun _ => none, ?_, by simp⟩
    rw [List.forall₂_map_right_iff, List.forall₂_same]
    exact h

/-- **The validation.** -/
theorem verify_ok {s : Scan} {paths : List String} {u : Unit}
    (hopen : Archiver.Native.openZip path w = .ok entries w)
    (hscan : scanEntries path entries = .ok s) :
    verify path paths w = .ok u w' ↔ w = w' ∧
    ∀ p ∈ paths, Sound entries (Record.parse s.record) p := by
  rw [← defects_ok]
  unfold verify
  simp only [Act.bind_ok, scan_ok, Act.ofExcept_ok]
  constructor
  · rintro ⟨s', _, ⟨rfl, es, hopen', hscan'⟩, es', _, hopen'', ds, _, ⟨hds, rfl⟩, hok⟩
    rw [hopen] at hopen' hopen''
    cases hopen'
    cases hopen''
    rw [hscan, Except.ok.injEq] at hscan'
    subst hscan'
    cases ds with
    | nil => exact ⟨(Act.pure_ok.1 hok).2, hds⟩
    | cons d ds => exact absurd hok Act.throw_ok
  · rintro ⟨rfl, hds⟩
    exact ⟨s, w, ⟨rfl, entries, hopen, hscan⟩, entries, w, hopen, [], w, ⟨hds, rfl⟩,
      Act.pure_ok.2 ⟨rfl, rfl⟩⟩

theorem scan_of_verify {paths : List String} {u : Unit} (h : verify path paths w = .ok u w') :
    ∃ entries s, Archiver.Native.openZip path w = .ok entries w ∧
      scanEntries path entries = .ok s := by
  unfold verify at h
  obtain ⟨s, w₁, hscan, -⟩ := Act.bind_ok.1 h
  obtain ⟨-, entries, hopen, hs⟩ := scan_ok.1 hscan
  exact ⟨entries, s, hopen, hs⟩

theorem sound_of_verify {paths : List String} {u : Unit}
    (hopen : Archiver.Native.openZip path w = .ok entries w) (h : verify path paths w = .ok u w') :
    ∃ s, scanEntries path entries = .ok s ∧ w = w' ∧
      ∀ p ∈ paths, Sound entries (Record.parse s.record) p := by
  obtain ⟨opened, s, hopened, hscan⟩ := scan_of_verify h
  rw [hopen] at hopened
  cases hopened
  exact ⟨s, hscan, (verify_ok hopen hscan).1 h⟩

end Wheel
end Rebadge
