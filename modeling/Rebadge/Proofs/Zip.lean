import Rebadge.Zip
import Mathlib.Data.List.Nodup

/-!
# Edits of archives

The entries that a reader sees have different names (`nodup_visible`), and an archive whose entries
have different names is seen as it is (`visible_eq_self`). Edits keep the names that they do not
drop, and several edits one after the other are one edit (`edit_edit`).
-/

namespace Rebadge.Zip

variable {α : Type} {entries : List (Entry α)} {name : String}

/-! ## Names -/

theorem mem_names {e : Entry α} (h : e ∈ entries) : e.name ∈ names entries := List.mem_map_of_mem h

@[simp] theorem names_nil : names ([] : List (Entry α)) = [] := rfl

@[simp] theorem names_cons (e : Entry α) (es : List (Entry α)) :
    names (e :: es) = e.name :: names es := rfl

@[simp] theorem names_append (es fs : List (Entry α)) : names (es ++ fs) = names es ++ names fs :=
  List.map_append

theorem put_of_not_mem {e : Entry α} (h : e.name ∉ names entries) :
    put e entries = entries ++ [e] := by
  induction entries with
  | nil => rfl
  | cons d rest ih =>
    have hd : d.name ≠ e.name := fun heq => h (by simp [names, heq])
    have hrest : e.name ∉ names rest := fun hmem => h (List.mem_cons_of_mem _ hmem)
    rw [put, if_neg hd, ih hrest, List.cons_append]

theorem names_put (e : Entry α) (entries : List (Entry α)) :
    names (put e entries) = if e.name ∈ names entries then names entries
    else names entries ++ [e.name] := by
  induction entries with
  | nil => rfl
  | cons d rest ih =>
    rw [put, names_cons]
    by_cases hd : d.name = e.name
    · rw [if_pos hd, if_pos (by simp [hd]), names_cons, hd]
    · rw [if_neg hd, names_cons, ih]
      by_cases hmem : e.name ∈ names rest
      · rw [if_pos hmem, if_pos (List.mem_cons_of_mem _ hmem)]
      · rw [if_neg hmem, if_neg (by simp [Ne.symm hd, hmem]), List.cons_append]

theorem nodup_put {e : Entry α} (h : (names entries).Nodup) : (names (put e entries)).Nodup := by
  rw [names_put]
  split
  · exact h
  · next hnot => exact List.nodup_append.2 ⟨h, by simp, fun a ha b hb => by
      rw [List.mem_singleton.1 hb]
      rintro rfl
      exact hnot ha⟩

theorem nodup_visible (entries : List (Entry α)) : (names (visible entries)).Nodup := by
  have hfold : ∀ (es seen : List (Entry α)), (names seen).Nodup →
      (names (es.foldl (fun seen e => put e seen) seen)).Nodup := by
    intro es
    induction es with
    | nil => exact fun _ h => h
    | cons e es ih => exact fun seen h => ih _ (nodup_put h)
  exact hfold entries [] List.nodup_nil

theorem visible_eq_self (h : (names entries).Nodup) : visible entries = entries := by
  have hfold : ∀ (es seen : List (Entry α)), (names (seen ++ es)).Nodup →
      es.foldl (fun seen e => put e seen) seen = seen ++ es := by
    intro es
    induction es with
    | nil => intro seen _; simp
    | cons e es ih =>
      intro seen h
      have hnot : e.name ∉ names seen := by
        rw [names_append, List.nodup_append] at h
        exact fun hmem => h.2.2 _ hmem _ (by simp [names]) rfl
      rw [List.foldl_cons, put_of_not_mem hnot, ih _ (by simpa using h), List.append_assoc,
        List.singleton_append]
  exact hfold entries [] h

/-! ## Finding -/

theorem find?_eq_some_iff (h : (names entries).Nodup) {e : Entry α} :
    find? entries name = some e ↔ e ∈ entries ∧ e.name = name := by
  unfold find?
  constructor
  · intro hfind
    exact ⟨List.mem_of_find?_eq_some hfind, by simpa using List.find?_some hfind⟩
  · rintro ⟨hmem, rfl⟩
    cases hfind : entries.find? (·.name == e.name) with
    | none => exact absurd (List.find?_eq_none.1 hfind e hmem) (by simp)
    | some d =>
      have hd : d.name = e.name := by simpa using List.find?_some hfind
      rw [List.inj_on_of_nodup_map h (List.mem_of_find?_eq_some hfind) hmem hd]

theorem find?_eq_none_iff : find? entries name = none ↔ name ∉ names entries := by
  unfold find? names
  rw [List.find?_eq_none, List.mem_map]
  simp only [beq_iff_eq, not_exists, not_and]

theorem exists_of_mem_names (h : name ∈ names entries) :
    ∃ e ∈ entries, e.name = name := List.mem_map.1 h

/-! ## Editing -/

/-- Whether an entry is dropped. -/
def Action.isDrop : Action α → Bool
  | drop => true
  | _ => false

theorem Action.apply_name {a : Action α} {e e' : Entry α} (h : a.apply e = some e') :
    e'.name = e.name := by
  cases a with
  | keep => rw [← Option.some.inj h]
  | drop => exact absurd h (by simp [apply])
  | replace data => rw [← Option.some.inj h]

theorem Action.apply_eq_none {a : Action α} {e : Entry α} : a.apply e = none ↔ a.isDrop = true := by
  cases a <;> simp [apply, isDrop]

theorem edit_cons_of_some {f : String → Action α} {e e' : Entry α}
    (h : (f e.name).apply e = some e') (rest : List (Entry α)) :
    edit f (e :: rest) = e' :: edit f rest := by
  unfold edit
  rw [List.filterMap_cons, h]

theorem edit_cons_of_none {f : String → Action α} {e : Entry α} (h : (f e.name).apply e = none)
    (rest : List (Entry α)) : edit f (e :: rest) = edit f rest := by
  unfold edit
  rw [List.filterMap_cons, h]

theorem names_edit (f : String → Action α) (entries : List (Entry α)) :
    names (edit f entries) = (names entries).filter fun n => !(f n).isDrop := by
  induction entries with
  | nil => rfl
  | cons e rest ih =>
    rw [names_cons, List.filter_cons]
    cases happly : (f e.name).apply e with
    | none =>
      rw [edit_cons_of_none happly, Action.apply_eq_none.1 happly, ih]
      rfl
    | some e' =>
      have hdrop : (f e.name).isDrop = false := by
        rw [← Bool.not_eq_true, ← Action.apply_eq_none (e := e), happly]
        simp
      rw [edit_cons_of_some happly, names_cons, Action.apply_name happly, hdrop, ih]
      rfl

theorem nodup_edit (f : String → Action α) (h : (names entries).Nodup) :
    (names (edit f entries)).Nodup := by
  rw [names_edit]
  exact h.filter _

theorem edit_congr {f g : String → Action α} (h : ∀ n ∈ names entries, f n = g n) :
    edit f entries = edit g entries :=
  List.filterMap_congr fun e he => by rw [h e.name (mem_names he)]

/-! ## Several edits -/

/-- One action after another. -/
def Action.andThen : Action α → Action α → Action α
  | keep, b => b
  | drop, _ => drop
  | replace data, keep => replace data
  | replace _, b => b

theorem regularMode_regularMode (mode : Option Nat) :
    regularMode (some (regularMode mode)) = regularMode mode := by
  unfold regularMode
  simp only [Option.getD_some]
  omega

theorem Action.apply_andThen (a b : Action α) (e : Entry α) :
    (a.andThen b).apply e = (a.apply e).bind b.apply := by
  cases a <;> cases b <;> simp [andThen, apply, regularMode_regularMode]

/-- **Several edits are one.** -/
theorem edit_edit (f g : String → Action α) (entries : List (Entry α)) :
    edit g (edit f entries) = edit (fun n => (f n).andThen (g n)) entries := by
  unfold edit
  rw [List.filterMap_filterMap]
  refine List.filterMap_congr fun e _ => ?_
  rw [Action.apply_andThen]
  cases happly : (f e.name).apply e with
  | none => rfl
  | some e' => rw [Option.bind_some, Option.bind_some, Action.apply_name happly]

/-! ## Adding -/

theorem add?_eq_none {e : Entry α} :
    add? e entries = none ↔ e.name ∈ names entries := by
  unfold add?
  by_cases h : e.name ∈ names entries <;> simp [h]

theorem add?_of_not_mem {e : Entry α}
    (h : e.name ∉ names entries) : add? e entries = some (entries ++ [e]) := by
  unfold add?
  rw [if_neg h]

theorem nodup_concat {e : Entry α}
    (h : (names entries).Nodup) (hnew : e.name ∉ names entries) :
    (names (entries ++ [e])).Nodup := by
  rw [names_append, List.nodup_append]
  refine ⟨h, by simp, fun a ha b hb => ?_⟩
  rw [List.mem_singleton.1 hb]
  rintro rfl
  exact hnew ha

end Rebadge.Zip
