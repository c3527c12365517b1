import Rebadge.Proofs.Outcome
import Rebadge.Proofs.Run.Tasks

/-!
# The patches of a run

All artifacts are patched, one after another in the order of the schedule, and the outcomes are put
in the order of the artifacts (`patchAll_eq`, `getElem?_arranged`).
-/

namespace Rebadge

namespace Act

variable {α ι κ : Type} {w : Workspace}

theorem outcomes_map {act : ι → Act α} {act' : κ → Act α} (f : ι → κ) {items : List ι}
    (h : ∀ x ∈ items, act x = act' (f x)) : outcomes act items w = outcomes act' (items.map f) w ∧
      leavesAll act items w = leavesAll act' (items.map f) w := by
  induction items generalizing w with
  | nil => exact ⟨rfl, rfl⟩
  | cons x items ih =>
    obtain ⟨hx, hitems⟩ := List.forall_mem_cons.1 h
    obtain ⟨houtcomes, hleaves⟩ := ih (w := leaves (act' (f x)) w) hitems
    refine ⟨?_, ?_⟩
    · rw [outcomes, hx, houtcomes, List.map_cons, outcomes]
    · rw [leavesAll, List.foldl_cons, hx]
      exact hleaves

end Act

namespace Run

open Act (outcomes leavesAll)

variable {s : Setting} {artifacts : List (Artifact × String)} {w : Workspace}

/-- Patches a downloaded artifact and moves it. -/
def unit (s : Setting) (p : Artifact × String) : Act Patched :=
  Artifact.patch s.config s.archiver p.1.filename p.2 s.config.distDir

/-- The downloaded artifacts in the order in which they are patched. -/
def turns (s : Setting) (artifacts : List (Artifact × String)) : List (Artifact × String) :=
  (s.patches.arrange artifacts).map Prod.fst

theorem perm_turns (s : Setting) (artifacts : List (Artifact × String)) :
    (turns s artifacts).Perm artifacts :=
  perm_arrange s.patches artifacts

/-- The outcomes in the order of the artifacts. -/
def arranged (s : Setting) (artifacts : List (Artifact × String)) (w : Workspace) :
    List (Except Failure Patched) :=
  inOrder artifacts.length
    ((outcomes (unit s) (turns s artifacts) w).zip ((s.patches.arrange artifacts).map Prod.snd))

/-- **All artifacts are patched**, whether patching others fails or not. -/
theorem patchAll_eq (s : Setting) (artifacts : List (Artifact × String)) (w : Workspace) :
    patchAll s artifacts w = .ok (arranged s artifacts w)
    (leavesAll (unit s) (turns s artifacts) w) := by
  let act : (Artifact × String) × Nat → Act Patched := fun p => unit s p.1
  have hall := Act.mapM_attempt act Prod.snd (s.patches.arrange artifacts) w
  have hunits : ∀ p ∈ s.patches.arrange artifacts, act p = unit s p.1 := fun _ _ => rfl
  obtain ⟨houtcomes, hleaves⟩ := Act.outcomes_map (w := w) Prod.fst hunits
  rw [houtcomes, hleaves] at hall
  exact (Act.bind_of_ok (f := fun results => pure (inOrder artifacts.length results)) hall).trans
    rfl

theorem perm_numbers (s : Setting) (artifacts : List (Artifact × String)) (w : Workspace) :
    (((outcomes (unit s) (turns s artifacts) w).zip
      ((s.patches.arrange artifacts).map Prod.snd)).map Prod.snd).Perm
      (List.range artifacts.length) := by
  rw [List.map_snd_zip, s.patches.map_snd_arrange]
  · exact s.patches.perm _
  · exact Nat.le_of_eq (by rw [Act.length_outcomes, turns, List.length_map, List.length_map])

theorem length_arranged (s : Setting) (artifacts : List (Artifact × String)) (w : Workspace) :
    (arranged s artifacts w).length = artifacts.length :=
  length_inOrder (perm_numbers s artifacts w)

/-- The workspace after a number of units. -/
def stage (s : Setting) (artifacts : List (Artifact × String)) (w : Workspace)
    (n : Nat) : Workspace :=
  leavesAll (unit s) ((turns s artifacts).take n) w

theorem stage_succ {n : Nat} {p : Artifact × String} (hp : (turns s artifacts)[n]? = some p) :
    stage s artifacts w (n + 1) = Act.leaves (unit s p) (stage s artifacts w n) := by
  unfold stage leavesAll
  rw [List.take_add_one, hp, List.foldl_append]
  rfl

theorem stage_all (s : Setting) (artifacts : List (Artifact × String)) (w : Workspace) :
    stage s artifacts w artifacts.length = leavesAll (unit s) (turns s artifacts) w := by
  unfold stage
  rw [List.take_of_length_le (Nat.le_of_eq (perm_turns s artifacts).length_eq)]

theorem getElem?_arranged {n i : Nat} {p : Artifact × String}
    (hturn : (s.patches.order artifacts.length)[n]? = some i) (hp : artifacts[i]? = some p) :
    (turns s artifacts)[n]? = some p ∧
      (arranged s artifacts w)[i]? = some (Act.outcome (unit s p) (stage s artifacts w n)) := by
  have harrange : (s.patches.arrange artifacts)[n]? = some (p, i) := by
    rw [s.patches.getElem?_arrange, hturn, Option.bind_some, hp]
    rfl
  have hp' : (turns s artifacts)[n]? = some p := by
    rw [turns, List.getElem?_map, harrange]
    rfl
  refine ⟨hp', getElem?_inOrder (perm_numbers s artifacts w) (List.mem_iff_getElem?.2 ⟨n, ?_⟩)⟩
  rw [List.getElem?_zip_eq_some, Act.getElem?_outcomes, hp', List.getElem?_map, harrange]
  exact ⟨rfl, rfl⟩

theorem exists_turn (s : Setting) {i : Nat} (hi : i < artifacts.length) :
    ∃ n : Nat, (s.patches.order artifacts.length)[n]? = some i :=
  List.mem_iff_getElem?.1 ((s.patches.perm _).mem_iff.2 (List.mem_range.2 hi))

end Run
end Rebadge
