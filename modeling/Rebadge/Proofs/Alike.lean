import Rebadge.Archiver.Native
import Rebadge.Proofs.Outcome
import Rebadge.Proofs.Disk.Twins

/-!
# Acts that end alike

Two runs of an act agree if they end with the same result or failure, in workspaces of a relation
again (`Agree`). An act that does so from all workspaces of the relation is one that they are alike
for (`Alike`). This passes on from steps to acts, so a relation between disks is shown for each step
only.
-/

namespace Rebadge.Act

open Disk (Both SameEnd)

variable {α β : Type} {Q : Workspace → Workspace → Prop}

/-- Both results are the same, in workspaces of the relation. -/
inductive Agree (Q : Workspace → Workspace → Prop) : EStateM.Result Failure Workspace α →
    EStateM.Result Failure Workspace α → Prop where
  | ok (a : α) {w w' : Workspace} (h : Q w w') : Agree Q (.ok a w) (.ok a w')
  | error (e : Failure) {w w' : Workspace} (h : Q w w') : Agree Q (.error e w) (.error e w')

/-- The act ends alike in workspaces of the relation. -/
def Alike (Q : Workspace → Workspace → Prop) (act : Act α) : Prop :=
  ∀ w w', Q w w' → Agree Q (act w) (act w')

/-! ## How an act ends -/

theorem Agree.outcome_eq {act : Act α} {w w' : Workspace} (h : Agree Q (act w) (act w')) :
    outcome act w = outcome act w' := by
  unfold outcome
  generalize act w = x at h
  generalize act w' = x' at h
  cases h <;> rfl

theorem Agree.leaves {act : Act α} {w w' : Workspace} (h : Agree Q (act w) (act w')) :
    Q (leaves act w) (leaves act w') := by
  unfold Act.leaves
  generalize act w = x at h
  generalize act w' = x' at h
  cases h with
  | ok a h => exact h
  | error e h => exact h

/-! ## Acts of acts -/

theorem alike_pure (a : α) : Alike Q (pure a : Act α) := fun _ _ h => .ok a h

theorem alike_throw (e : Failure) : Alike Q (throw e : Act α) := fun _ _ h => .error e h

theorem alike_throw_bind (e : Failure) (f : α → Act β) : Alike Q ((throw e : Act α) >>= f) :=
  fun _ _ h => .error e h

theorem alike_ofExcept (x : Except Failure α) : Alike Q (ofExcept x) := by
  cases x with
  | ok a => exact alike_pure a
  | error e => exact alike_throw e

theorem Agree.bind_of {P : Workspace → Workspace → Prop} {x : Act α}
    {f : α → Act β} {w w' : Workspace} (hx : Agree P (x w) (x w')) (hP : ∀ w w', P w w' → Q w w')
    (hf : ∀ a w₁ w₁', P w₁ w₁' → x w = .ok a w₁ → Agree Q (f a w₁) (f a w₁')) :
    Agree Q ((x >>= f) w) ((x >>= f) w') := by
  generalize hr : x w = r at hx
  generalize hr' : x w' = r' at hx
  cases hx with
  | ok a h =>
    rw [bind_of_ok hr, bind_of_ok hr']
    exact hf a _ _ h hr
  | error e h =>
    rw [bind_of_error hr, bind_of_error hr']
    exact .error e (hP _ _ h)

theorem Alike.bind_of {x : Act α} {f : α → Act β} (hx : Alike Q x)
    (hf : ∀ a w w' w₁, Q w w' → x w = .ok a w₁ → Alike Q (f a)) : Alike Q (x >>= f) :=
  fun w w' hw => (hx w w' hw).bind_of (fun _ _ h => h) fun a _ _ h hr => hf a w w' _ hw hr _ _ h

theorem Alike.bind {x : Act α} {f : α → Act β} (hx : Alike Q x) (hf : ∀ a, Alike Q (f a)) :
    Alike Q (x >>= f) :=
  hx.bind_of fun a _ _ _ _ _ => hf a

theorem alike_ite {p : Prop} [Decidable p] {x y : Act α} (hx : p → Alike Q x)
    (hy : ¬ p → Alike Q y) : Alike Q (if p then x else y) := by
  split
  · next h => exact hx h
  · next h => exact hy h

theorem alike_forM {f : α → Act Unit} {items : List α} (h : ∀ a ∈ items, Alike Q (f a)) :
    Alike Q (items.forM f) := by
  induction items with
  | nil => exact alike_pure ()
  | cons a items ih =>
    obtain ⟨ha, hitems⟩ := List.forall_mem_cons.1 h
    exact ha.bind fun _ => ih hitems

theorem alike_mapM {f : α → Act β} {items : List α} (h : ∀ a ∈ items, Alike Q (f a)) :
    Alike Q (items.mapM f) := by
  induction items with
  | nil => exact alike_pure []
  | cons a items ih =>
    obtain ⟨ha, hitems⟩ := List.forall_mem_cons.1 h
    rw [List.mapM_cons]
    exact ha.bind fun b => (ih hitems).bind fun bs => alike_pure (b :: bs)

theorem Alike.attempt {x : Act α} (hx : Alike Q x) : Alike Q (attempt x) := by
  intro w w' h
  have hagree := hx w w' h
  unfold Act.attempt
  generalize x w = r at hagree ⊢
  generalize x w' = r' at hagree ⊢
  cases hagree with
  | ok a h => exact Agree.ok (Except.ok a) h
  | error e h => exact Agree.ok (Except.error e) h

/-! ## Steps on the disk -/

/-- The workspaces are two others but for the disks, which are of a relation. The system refuses the
same to both. -/
structure OnDisks (a a' : Workspace) (R : Disk → Disk → Prop) (w w' : Workspace) : Prop where
  left : w = { a with disk := w.disk }
  right : w' = { a' with disk := w'.disk }
  refuses : w.refuses = w'.refuses
  disks : R w.disk w'.disk

variable {a a' : Workspace} {R : Disk → Disk → Prop}

theorem OnDisks.set {w w' : Workspace} (h : OnDisks a a' R w w') {P : Disk → Disk → Prop}
    {d d' : Disk} (hd : P d d') : OnDisks a a' P { w with disk := d } { w' with disk := d' } where
  left := by rw [h.left]
  right := by rw [h.right]
  refuses := h.refuses
  disks := hd

theorem OnDisks.mono {w w' : Workspace} (h : OnDisks a a' R w w') {P : Disk → Disk → Prop}
    (hd : P w.disk w'.disk) : OnDisks a a' P w w' := ⟨h.left, h.right, h.refuses, hd⟩

theorem alike_disk_bind {f : Disk → Act α} (heq : ∀ d d', R d d' → f d = f d')
    (h : ∀ d d', R d d' → Alike (OnDisks a a' R) (f d)) : Alike (OnDisks a a' R) (disk >>= f) := by
  intro w w' hw
  show Agree _ (f w.disk w) (f w'.disk w')
  rw [← heq _ _ hw.disks]
  exact h _ _ hw.disks w w' hw

theorem alike_look {f : Disk → Except IoError α} (h : ∀ d d', R d d' → f d = f d') :
    Alike (OnDisks a a' R) (look f) := by
  unfold look
  exact alike_disk_bind (fun d d' hd => by rw [h d d' hd]) fun d _ _ => alike_ofExcept _

theorem alike_change {f : Disk → Except IoError Disk} (h : ∀ d d', R d d' → Both R (f d) (f d')) :
    Alike (OnDisks a a' R) (change f) := by
  intro w w' hw
  have hboth := h _ _ hw.disks
  generalize hx : f w.disk = x at hboth
  generalize hx' : f w'.disk = x' at hboth
  cases hboth with
  | ok hd =>
    rw [change_of_ok hx, change_of_ok hx']
    exact .ok () (hw.set hd)
  | error e =>
    rw [change_of_error hx, change_of_error hx']
    exact .error _ hw

theorem alike_get_bind {f : Workspace → Act α}
    (heq : ∀ w w', OnDisks a a' R w w' → f w = f w')
    (h : ∀ w, Alike (OnDisks a a' R) (f w)) : Alike (OnDisks a a' R) (get >>= f) := by
  intro w w' hw
  show Agree _ (f w w) (f w' w')
  rw [← heq w w' hw]
  exact h w w w' hw

theorem alike_outcome {f : Disk → Disk × Except IoError Unit}
    (h : ∀ d d', R d d' → SameEnd R (f d) (f d')) :
    Alike (OnDisks a a' R)
    (disk >>= fun d => setDisk (f d).1 >>= fun _ => ofExcept ((f d).2.mapError .io)) := by
  intro w w' hw
  obtain ⟨hd, hend⟩ := h _ _ hw.disks
  show Agree _ (ofExcept ((f w.disk).2.mapError .io) { w with disk := (f w.disk).1 })
    (ofExcept ((f w'.disk).2.mapError .io) { w' with disk := (f w'.disk).1 })
  rw [← hend]
  exact alike_ofExcept _ _ _ (hw.set hd)

theorem alike_makeDirs {path : String}
    (h : ∀ d d', R d d' → SameEnd R (d.ensureDirs path) (d'.ensureDirs path)) :
    Alike (OnDisks a a' R) (makeDirs path) := alike_outcome h

/-! ## Scratch directories -/

/-- The result of an act, on a disk without the scratch directory. -/
def closed (path : String) : EStateM.Result Failure Workspace α → EStateM.Result Failure Workspace α
  | .ok b w => .ok b { w with disk := cleared w.disk path }
  | .error e w => .error e { w with disk := cleared w.disk path }

variable {w : Workspace}

theorem withScratch_eq (body : String → Act α) (w : Workspace) : withScratch body w =
    (change (·.makeDir (scratchPath w)) >>= fun _ => attempt (body (scratchPath w)) >>= fun x =>
      modify (fun w' => { w' with disk := cleared w'.disk (scratchPath w) }) >>=
          fun _ => ofExcept x) w := by
  unfold withScratch
  have hget : (get : Act Workspace) w = .ok w w := rfl
  exact bind_of_ok hget

theorem withScratch_of_error (body : String → Act α) {e : IoError}
    (h : w.disk.makeDir (scratchPath w) = .error e) : withScratch body w = .error (.io e) w := by
  rw [withScratch_eq]
  exact bind_of_error (change_of_error (f := (·.makeDir (scratchPath w))) h)

theorem withScratch_of_ok (body : String → Act α) {d : Disk}
    (h : w.disk.makeDir (scratchPath w) = .ok d) :
    withScratch body w = closed (scratchPath w) (body (scratchPath w) { w with disk := d }) := by
  rw [withScratch_eq]
  refine (bind_of_ok (change_of_ok (f := (·.makeDir (scratchPath w))) h)).trans ?_
  generalize scratchPath w = path
  generalize hr : body path { w with disk := d } = r
  cases r with
  | ok b w₁ =>
    have hattempt : attempt (body path) { w with disk := d } = .ok (.ok b) w₁ := by
      unfold attempt
      rw [hr]
    exact (bind_of_ok hattempt).trans rfl
  | error e w₁ =>
    have hattempt : attempt (body path) { w with disk := d } = .ok (.error e) w₁ := by
      unfold attempt
      rw [hr]
    exact (bind_of_ok hattempt).trans rfl

theorem leaves_withScratch (body : String → Act α) {d : Disk}
    (h : w.disk.makeDir (scratchPath w) = .ok d) :
    leaves (withScratch body) w = { leaves (body (scratchPath w)) { w with disk := d } with
      disk := cleared
        (leaves (body (scratchPath w)) { w with disk := d }).disk (scratchPath w) } := by
  unfold leaves
  rw [withScratch_of_ok body h]
  cases body (scratchPath w) { w with disk := d } <;> rfl

end Rebadge.Act
