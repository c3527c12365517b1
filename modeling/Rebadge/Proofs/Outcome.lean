import Rebadge.Proofs.Act

/-!
# How acts end

An act ends with an outcome and leaves a workspace (`attempt_eq`). What each step keeps an act of
several steps keeps as well (`Keeps`). Of several acts that are all attempted, each one starts in
what those before it have left (`mapM_attempt`, `getElem?_outcomes`).
-/

namespace Rebadge.Act

variable {α β ι : Type} {w w' : Workspace}

/-- The result of an act, or the failure. -/
def outcome (act : Act α) (w : Workspace) : Except Failure α :=
  match act w with
  | .ok a _ => .ok a
  | .error e _ => .error e

/-- The workspace that an act leaves behind. -/
def leaves (act : Act α) (w : Workspace) : Workspace :=
  match act w with
  | .ok _ w' => w'
  | .error _ w' => w'

theorem attempt_eq (act : Act α) (w : Workspace) :
    attempt act w = .ok (outcome act w) (leaves act w) := by
  unfold attempt outcome leaves
  cases act w <;> rfl

theorem eq_of_outcome_ok {act : Act α} {a : α} (h : outcome act w = .ok a) :
    act w = .ok a (leaves act w) := by
  unfold outcome at h
  unfold leaves
  split at h
  · next heq => rw [heq, Except.ok.inj h]
  · exact absurd h (by simp)

theorem eq_of_outcome_error {act : Act α} {e : Failure} (h : outcome act w = .error e) :
    act w = .error e (leaves act w) := by
  unfold outcome at h
  unfold leaves
  split at h
  · exact absurd h (by simp)
  · next heq => rw [heq, Except.error.inj h]

theorem outcome_of_ok {act : Act α} {a : α} (h : act w = .ok a w') : outcome act w = .ok a := by
  unfold outcome
  rw [h]

theorem outcome_of_error {act : Act α} {e : Failure} (h : act w = .error e w') :
    outcome act w = .error e := by
  unfold outcome
  rw [h]

theorem leaves_of_ok {act : Act α} {a : α} (h : act w = .ok a w') : leaves act w = w' := by
  unfold leaves
  rw [h]

theorem leaves_of_error {act : Act α} {e : Failure} (h : act w = .error e w') :
    leaves act w = w' := by
  unfold leaves
  rw [h]

theorem isOk_outcome {act : Act α} : (outcome act w).isOk = true ↔ ∃ a w', act w = .ok a w' := by
  unfold outcome
  cases act w <;> simp [Except.isOk, Except.toBool]

theorem leaves_bind_of_ok {act : Act α} {f : α → Act β} {a : α} (h : act w = .ok a w') :
    leaves (act >>= f) w = leaves (f a) w' := by
  unfold leaves
  rw [bind_of_ok h]

theorem leaves_bind_of_error {act : Act α} {f : α → Act β} {e : Failure} (h : act w = .error e w') :
    leaves (act >>= f) w = w' := leaves_of_error (bind_of_error h)

theorem outcome_bind_of_ok {act : Act α} {f : α → Act β} {a : α} (h : act w = .ok a w') :
    outcome (act >>= f) w = outcome (f a) w' := by
  unfold outcome
  rw [bind_of_ok h]

theorem outcome_bind_of_error {act : Act α} {f : α → Act β} {e : Failure}
    (h : act w = .error e w') : outcome (act >>= f) w = .error e := by
  unfold outcome
  rw [bind_of_error h]

theorem bind_error {x : Act α} {f : α → Act β} {e : Failure} : (x >>= f) w = .error e w' ↔
    x w = .error e w' ∨ ∃ a w₁, x w = .ok a w₁ ∧ f a w₁ = .error e w' := by
  cases h : x w with
  | ok a w₁ => simp [bind_of_ok h]
  | error e₁ w₁ => simp [bind_of_error h]

theorem ofExcept_error {x : Except Failure α} {e : Failure} :
    ofExcept x w = .error e w' ↔ x = .error e ∧ w = w' := by
  cases x with
  | ok a => exact iff_of_false (by rintro ⟨⟩) (by simp)
  | error e₁ =>
    show EStateM.Result.error e₁ w = .error e w' ↔ _
    simp

theorem outcome_ofExcept (x : Except Failure α) (w : Workspace) : outcome (ofExcept x) w = x := by
  cases x <;> rfl

theorem leaves_ofExcept (x : Except Failure α) (w : Workspace) : leaves (ofExcept x) w = w := by
  cases x <;> rfl

theorem change_of_ok {f : Disk → Except IoError Disk} {w : Workspace} {d : Disk}
    (h : f w.disk = .ok d) :
    change f w = .ok () { w with disk := d } := change_ok.2 ⟨d, h, rfl⟩

theorem change_of_error {f : Disk → Except IoError Disk} {w : Workspace} {e : IoError}
    (h : f w.disk = .error e) : change f w = .error (.io e) w := by
  show (ofExcept ((f w.disk).mapError .io) >>= setDisk) w = _
  rw [h]
  rfl

theorem change_error {f : Disk → Except IoError Disk} {e : Failure} :
    change f w = .error e w' ↔ ∃ e', f w.disk = .error e' ∧ e = .io e' ∧ w = w' := by
  cases h : f w.disk with
  | ok d => simp [change_of_ok h]
  | error e₁ => simp [change_of_error h, eq_comm]

/-! ## What acts keep -/

/-- The property of workspaces is kept, however the act ends. -/
def Keeps (P : Workspace → Prop) (act : Act α) : Prop := ∀ w, P w → P (leaves act w)

variable {P : Workspace → Prop} {act : Act α}

theorem keeps_ofExcept (x : Except Failure α) : Keeps P (ofExcept x) := by
  intro w h
  cases x <;> exact h

theorem keeps_pure (a : α) : Keeps P (pure a : Act α) := keeps_ofExcept (.ok a)

theorem keeps_throw (e : Failure) : Keeps P (throw e : Act α) := keeps_ofExcept (.error e)

theorem keeps_disk : Keeps P disk := fun _ hw => hw

/-- What follows need only keep it after results that there are. -/
theorem Keeps.bind_of {f : α → Act β} (h : Keeps P act)
    (hf : ∀ a w w', act w = .ok a w' → Keeps P (f a)) : Keeps P (act >>= f) := by
  intro w hw
  have hact := h w hw
  cases hx : act w with
  | ok a w₁ =>
    rw [leaves_of_ok hx] at hact
    rw [leaves_bind_of_ok hx]
    exact hf a w w₁ hx w₁ hact
  | error e w₁ =>
    rw [leaves_of_error hx] at hact
    rwa [leaves_bind_of_error hx]

theorem Keeps.bind {f : α → Act β} (h : Keeps P act) (hf : ∀ a, Keeps P (f a)) :
    Keeps P (act >>= f) :=
  h.bind_of fun a _ _ _ => hf a

theorem keeps_throw_bind (e : Failure) (f : α → Act β) : Keeps P ((throw e : Act α) >>= f) :=
  (keeps_throw e).bind_of fun _ _ _ h => absurd h throw_ok

theorem keeps_look (f : Disk → Except IoError α) : Keeps P (look f) :=
  keeps_disk.bind fun _ => keeps_ofExcept _

theorem keeps_change {f : Disk → Except IoError Disk}
    (h : ∀ w d, P w → f w.disk = .ok d → P { w with disk := d }) : Keeps P (change f) := by
  intro w hw
  cases hf : f w.disk with
  | ok d =>
    rw [leaves_of_ok (change_of_ok hf)]
    exact h w d hw hf
  | error e => rwa [leaves_of_error (change_of_error hf)]

theorem keeps_makeDirs {path : String}
    (h : ∀ w, P w → P { w with disk := (w.disk.ensureDirs path).1 }) : Keeps P (makeDirs path) := by
  intro w hw
  show P (leaves (ofExcept ((w.disk.ensureDirs path).2.mapError .io))
    { w with disk := (w.disk.ensureDirs path).1 })
  rw [leaves_ofExcept]
  exact h w hw

theorem keeps_forM {f : ι → Act Unit} {items : List ι} (h : ∀ x ∈ items, Keeps P (f x)) :
    Keeps P (items.forM f) := by
  induction items with
  | nil => exact keeps_pure ()
  | cons x items ih =>
    obtain ⟨hx, hitems⟩ := List.forall_mem_cons.1 h
    exact hx.bind fun _ => ih hitems

theorem keeps_mapM {f : ι → Act α} {items : List ι} (h : ∀ x ∈ items, Keeps P (f x)) :
    Keeps P (items.mapM f) := by
  induction items with
  | nil => exact keeps_pure []
  | cons x items ih =>
    obtain ⟨hx, hitems⟩ := List.forall_mem_cons.1 h
    rw [List.mapM_cons]
    exact hx.bind fun a => (ih hitems).bind fun rest => keeps_pure (a :: rest)

/-- All of several acts succeed, or none of them counts. -/
theorem mapM_ok {f : ι → Act α} {items : List ι} {results : List α}
    (h : items.mapM f w = .ok results w') {g : ι → α}
    (hg : ∀ x ∈ items, ∀ w a w', f x w = .ok a w' → a = g x) :
    results = items.map g ∧ ∀ x ∈ items, ∃ w₁ a w₂, f x w₁ = .ok a w₂ := by
  induction items generalizing w w' results with
  | nil =>
    obtain ⟨rfl, -⟩ := pure_ok.1 h
    exact ⟨rfl, by simp⟩
  | cons x items ih =>
    rw [List.mapM_cons] at h
    obtain ⟨a, w₁, hx, h⟩ := bind_ok.1 h
    obtain ⟨rest, w₂, hrest, h⟩ := bind_ok.1 h
    obtain ⟨rfl, -⟩ := pure_ok.1 h
    obtain ⟨hgx, hgrest⟩ := List.forall_mem_cons.1 hg
    obtain ⟨rfl, hall⟩ := ih hrest hgrest
    exact ⟨by rw [hgx w a w₁ hx, List.map_cons], List.forall_mem_cons.2 ⟨⟨w, a, w₁, hx⟩, hall⟩⟩

theorem mapM_error {f : ι → Act α} {items : List ι} {e : Failure}
    (h : items.mapM f w = .error e w') : ∃ x ∈ items, ∃ w₁, f x w₁ = .error e w' := by
  induction items generalizing w with
  | nil => exact absurd h (by rintro ⟨⟩)
  | cons x items ih =>
    rw [List.mapM_cons] at h
    rcases bind_error.1 h with hx | ⟨a, w₁, -, h⟩
    · exact ⟨x, List.mem_cons_self, w, hx⟩
    rcases bind_error.1 h with hrest | ⟨rest, w₂, -, h⟩
    · obtain ⟨y, hy, hfails⟩ := ih hrest
      exact ⟨y, List.mem_cons_of_mem _ hy, hfails⟩
    · exact absurd h (by rintro ⟨⟩)

theorem mapM_ofExcept (outcomes : List (Except Failure α)) (w : Workspace) :
    (∃ results : List α, outcomes = results.map .ok ∧ outcomes.mapM ofExcept w = .ok results w) ∨
      ∃ (before : List α) (e : Failure) (after : List (Except Failure α)),
        outcomes = before.map .ok ++ .error e :: after ∧ outcomes.mapM ofExcept w = .error e w := by
  induction outcomes with
  | nil => exact .inl ⟨[], rfl, rfl⟩
  | cons x outcomes ih =>
    rw [List.mapM_cons]
    cases x with
    | error e =>
      have herror : (ofExcept (.error e) : Act α) w = .error e w := rfl
      exact .inr ⟨[], e, outcomes, rfl, bind_of_error herror⟩
    | ok a =>
      have hok : (ofExcept (.ok a) : Act α) w = .ok a w := rfl
      have hbind : ∀ rest : Act (List α),
          ((ofExcept (.ok a) : Act α) >>= fun b => rest >>= fun bs => pure (b :: bs)) w =
          (rest >>= fun bs => pure (a :: bs)) w := fun rest => bind_of_ok hok
      rw [hbind]
      rcases ih with ⟨results, rfl, h⟩ | ⟨before, e, after, rfl, h⟩
      · exact .inl ⟨a :: results, rfl, (bind_of_ok h).trans rfl⟩
      · exact .inr ⟨a :: before, e, after, rfl, bind_of_error h⟩

/-! ## Acts that are all attempted -/

/-- The workspace that several acts leave behind, one after another, whether they fail or not. -/
def leavesAll (act : ι → Act α) (items : List ι) (w : Workspace) : Workspace :=
  items.foldl (fun w x => leaves (act x) w) w

/-- How they end. -/
def outcomes (act : ι → Act α) : List ι → Workspace → List (Except Failure α)
  | [], _ => []
  | x :: items, w => outcome (act x) w :: outcomes act items (leaves (act x) w)

theorem length_outcomes (act : ι → Act α) (items : List ι) (w : Workspace) :
    (outcomes act items w).length = items.length := by
  induction items generalizing w with
  | nil => rfl
  | cons x items ih => rw [outcomes, List.length_cons, ih, List.length_cons]

theorem getElem?_outcomes (act : ι → Act α) (items : List ι) (w : Workspace) (n : Nat) :
    (outcomes act items w)[n]? = items[n]?.map fun x => outcome (act x)
    (leavesAll act (items.take n) w) := by
  induction items generalizing w n with
  | nil => rfl
  | cons x items ih =>
    cases n with
    | zero => rfl
    | succ n => exact ih (leaves (act x) w) n

/-- **Acts that are all attempted.** -/
theorem mapM_attempt (act : ι → Act α) (mark : ι → β) (items : List ι) (w : Workspace) :
    (items.mapM fun x => do return (← attempt (act x), mark x)) w =
      .ok ((outcomes act items w).zip (items.map mark)) (leavesAll act items w) := by
  induction items generalizing w with
  | nil => rfl
  | cons x items ih =>
    rw [List.mapM_cons]
    have hfirst : (do return (← attempt (act x), mark x) : Act _) w =
      .ok (outcome (act x) w, mark x) (leaves (act x) w) :=
      (bind_of_ok (attempt_eq (act x) w)).trans rfl
    refine (bind_of_ok hfirst).trans ?_
    exact (bind_of_ok (ih (leaves (act x) w))).trans rfl

end Rebadge.Act
