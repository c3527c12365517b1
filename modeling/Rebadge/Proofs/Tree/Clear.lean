import Rebadge.Proofs.Path
import Rebadge.Proofs.Tree.Listing

/-!
# Directories without links

Below a directory that holds no links, names lead to places below it as long as they do not go up
too often (`Clear.trails`), and where they lead depends on nothing else in the tree
(`Clear.walk_congr`). The directory stays such a one when a node is put there, dropped or moved.
-/

namespace Rebadge.Tree

open Rebadge.Path (IsPlain)

variable {t t' : Tree} {l k : Location} {r : Location} {names : List String} {n : Nat}

/-! ## Names that stay below -/

/-- From this many names below a directory the names never lead above it. -/
def stays : Nat → List String → Bool
  | _, [] => true
  | n, name :: rest =>
    if name = "" ∨ name = "." then stays n rest
    else if name = ".." then 0 < n && stays (n - 1) rest
    else stays (n + 1) rest

theorem stays_mono (h : stays n names = true) {m : Nat} (hle : n ≤ m) : stays m names = true := by
  induction names generalizing n m with
  | nil => rfl
  | cons name rest ih =>
    rw [stays] at h ⊢
    split
    · next h1 =>
      rw [if_pos h1] at h
      exact ih h hle
    · next h1 =>
      rw [if_neg h1] at h
      split
      · next h2 =>
        rw [if_pos h2, Bool.and_eq_true, decide_eq_true_eq] at h
        rw [Bool.and_eq_true, decide_eq_true_eq]
        exact ⟨by omega, ih h.2 (by omega)⟩
      · next h2 =>
        rw [if_neg h2] at h
        exact ih h (by omega)

theorem stays_of_not_mem (h : ".." ∉ names) : stays n names = true := by
  induction names generalizing n with
  | nil => rfl
  | cons name rest ih =>
    rw [List.mem_cons, not_or] at h
    rw [stays, if_neg (Ne.symm h.1)]
    split <;> exact ih h.2

theorem stays_append {more : List String} (h : stays n names = true) (hmore : stays 0 more = true) :
    stays n (names ++ more) = true := by
  induction names generalizing n with
  | nil => exact stays_mono hmore (Nat.zero_le n)
  | cons name rest ih =>
    rw [List.cons_append]
    rw [stays] at h ⊢
    split
    · next h1 =>
      rw [if_pos h1] at h
      exact ih h
    · next h1 =>
      rw [if_neg h1] at h
      split
      · next h2 =>
        rw [if_pos h2, Bool.and_eq_true] at h
        rw [Bool.and_eq_true]
        exact ⟨h.1, ih h.2⟩
      · next h2 =>
        rw [if_neg h2] at h
        exact ih h

theorem stays_left {more : List String} (h : stays n (names ++ more) = true) :
    stays n names = true := by
  induction names generalizing n with
  | nil => rfl
  | cons name rest ih =>
    rw [List.cons_append, stays] at h
    rw [stays]
    split
    · next h1 =>
      rw [if_pos h1] at h
      exact ih h
    · next h1 =>
      rw [if_neg h1] at h
      split
      · next h2 =>
        rw [if_pos h2, Bool.and_eq_true] at h
        rw [Bool.and_eq_true]
        exact ⟨h.1, ih h.2⟩
      · next h2 =>
        rw [if_neg h2] at h
        exact ih h

theorem stays_idle {name : String} {rest : List String} (h : stays n (name :: rest) = true)
    (hname : name = "" ∨ name = ".") : stays n rest = true := by
  rwa [stays, if_pos hname] at h

/-- Names go up from places further below only. -/
theorem exists_concat_of_stays {rest : List String} (h : stays r.length (".." :: rest) = true) :
    ∃ front last, r = front ++ [last] ∧ stays front.length rest = true := by
  rw [stays, if_neg (by decide), if_pos rfl, Bool.and_eq_true, decide_eq_true_eq] at h
  have hr : r ≠ [] := List.length_pos_iff.1 h.1
  exact ⟨r.dropLast, r.getLast hr,
    (List.dropLast_concat_getLast hr).symm, by rw [List.length_dropLast]; exact h.2⟩

theorem stays_name {name : String} {rest : List String} (h : stays r.length (name :: rest) = true)
    (hidle : ¬ (name = "" ∨ name = ".")) (hup : name ≠ "..") :
    stays (r ++ [name]).length rest = true := by
  rw [stays, if_neg hidle, if_neg hup] at h
  rwa [List.length_append, List.length_singleton]

/-- Where there are no links, such names lead to places below, if anywhere. -/
theorem arrived_of_stays (hlink : ∀ r target, t.get? (l ++ r) ≠ some (.link target))
    (hstays : stays r.length names = true) {f : Bool} {x : Trail}
    (h : t.trail f (l ++ r) names = .ok x) :
    ∃ k, x = .arrived k ∧ l <+: k := by
  rw [trail_eq_ok_iff] at h
  generalize hhere : l ++ r = here at h
  induction h generalizing r with
  | done => exact ⟨_, rfl, hhere ▸ List.prefix_append l r⟩
  | stay _ hname _ ih => exact ih (stays_idle hstays hname) hhere
  | up _ _ ih =>
    obtain ⟨front, last, rfl, hrest⟩ := exists_concat_of_stays hstays
    exact ih hrest (by rw [← hhere, ← List.append_assoc, List.dropLast_concat])
  | enter _ hname _ _ _ ih =>
    exact ih (stays_name hstays hname.not_idle hname.ne_parent) (by rw [← hhere, List.append_assoc])
  | missing =>
    refine ⟨_, rfl, ?_⟩
    rw [← hhere, List.append_assoc]
    exact List.prefix_append l _
  | lastLink _ _ hget =>
    rw [← hhere, List.append_assoc] at hget
    exact absurd hget (hlink _ _)
  | link _ _ hget =>
    rw [← hhere, List.append_assoc] at hget
    exact absurd hget (hlink _ _)

theorem walk_stays (hlink : ∀ r target, t.get? (l ++ r) ≠ some (.link target))
    (hstays : stays 0 names = true) {f : Bool} {b : Nat} (h : t.walk f b l names = .ok k) :
    l <+: k := by
  have hends : ∀ {x}, t.trail f l names = .ok x → ∃ k, x = .arrived k ∧ l <+: k := fun htrail =>
    arrived_of_stays (r := []) hlink hstays (by rwa [List.append_nil])
  cases walk_eq_ok_iff.1 h with
  | arrived htrail =>
    obtain ⟨k', hk', hbelow⟩ := hends htrail
    rwa [Trail.arrived.inj hk']
  | followed htrail =>
    obtain ⟨k', hk', -⟩ := hends htrail
    exact absurd hk' (by simp)

/-! ## The directory -/

/-- A directory without links, in which every node lies in a directory and has a plain name and a
location of its own. -/
structure Clear (t : Tree) (l : Location) : Prop where
  ne_nil : l ≠ []
  dir : ∃ m, t.get? l = some (.dir m)
  noLink : ∀ r target, t.get? (l ++ r) ≠ some (.link target)
  closed : ∀ q r, r ≠ [] → t.get? (l ++ q ++ r) ≠ none → ∃ m, t.get? (l ++ q) = some (.dir m)
  plain : ∀ r, t.get? (l ++ r) ≠ none → ∀ p ∈ r, IsPlain p
  nodup : (t.keys.filter l.isPrefixOf).Nodup

/-- A place at the directory or in a directory below it. -/
def Spot (t : Tree) (l k : Location) : Prop :=
  k = l ∨ ∃ r name, k = l ++ r ++ [name] ∧ IsPlain name ∧ ∃ m, t.get? (l ++ r) = some (.dir m)

theorem Clear.spot (h : Clear t l) (hr : t.get? (l ++ r) ≠ none) : Spot t l (l ++ r) := by
  by_cases hnil : r = []
  · exact Or.inl (by rw [hnil, List.append_nil])
  · have hlast : l ++ r = l ++ r.dropLast ++ [r.getLast hnil] := by
      rw [List.append_assoc, List.dropLast_concat_getLast]
    refine Or.inr ⟨r.dropLast, r.getLast hnil, hlast, h.plain r hr _ (List.getLast_mem hnil), ?_⟩
    exact h.closed r.dropLast [r.getLast hnil] (by simp) (by rwa [← hlast])

theorem Spot.below (h : Spot t l k) : l <+: k := by
  rcases h with rfl | ⟨r, name, rfl, -⟩
  · exact List.prefix_refl _
  · rw [List.append_assoc]
    exact List.prefix_append _ _

theorem Spot.ne_nil (h : Spot t l k) (hl : l ≠ []) : k ≠ [] := by
  rcases h with rfl | ⟨r, name, rfl, -⟩
  · exact hl
  · simp

theorem Clear.above (h : Clear t l) {q : Location} (hspot : Spot t l (l ++ (q ++ r)))
    (hr : r ≠ []) : ∃ m, t.get? (l ++ q) = some (.dir m) := by
  rcases hspot with heq | ⟨front, name, heq, -, m, hparent⟩
  · exact absurd (List.append_eq_nil_iff.1 (List.append_right_eq_self.1 heq)).2 hr
  · rw [List.append_assoc, List.append_cancel_left_eq, ← List.dropLast_concat_getLast hr,
      ← List.append_assoc] at heq
    obtain rfl := (List.append_inj' heq rfl).1
    by_cases hnil : r.dropLast = []
    · rw [hnil, List.append_nil] at hparent
      exact ⟨m, hparent⟩
    · exact h.closed q r.dropLast hnil (by rw [List.append_assoc, hparent]; simp)

theorem Clear.plain_spot (h : Clear t l) (hspot : Spot t l (l ++ r)) : ∀ p ∈ r, IsPlain p := by
  rcases hspot with heq | ⟨front, name, heq, hname, m, hparent⟩
  · rw [List.append_right_eq_self.1 heq]
    exact fun p hp => absurd hp List.not_mem_nil
  · rw [List.append_assoc, List.append_cancel_left_eq] at heq
    intro p hp
    rw [heq, List.mem_append, List.mem_singleton] at hp
    rcases hp with hp | rfl
    · exact h.plain front (by simp [hparent]) p hp
    · exact hname

theorem not_append_prefix (hr : r ≠ []) : ¬ l ++ r <+: l := by
  intro hpre
  have hlength := hpre.length_le
  rw [List.length_append] at hlength
  exact hr (List.length_eq_zero_iff.1 (by omega))

/-- **A trail** below the directory meets no link and ends at such a place. -/
theorem Clear.trails (h : Clear t l) (hslash : ∀ p ∈ names, '/' ∉ p.toList) (hr : Spot t l (l ++ r))
    (hstays : stays r.length names = true) {f : Bool} {x : Trail}
    (htrail : t.trail f (l ++ r) names = .ok x) :
    ∃ k, x = .arrived k ∧ Spot t l k := by
  rw [trail_eq_ok_iff] at htrail
  generalize hhere : l ++ r = here at htrail
  induction htrail generalizing r with
  | done => exact ⟨_, rfl, hhere ▸ hr⟩
  | stay _ hname _ ih =>
    exact ih (List.forall_mem_cons.1 hslash).2 hr (stays_idle hstays hname) hhere
  | @up here m _ _ hdir _ ih =>
    obtain ⟨front, last, rfl, hrest⟩ := exists_concat_of_stays hstays
    obtain ⟨m', hparent⟩ :=
      h.closed front [last] (by simp) (by rw [List.append_assoc, hhere, hdir]; simp)
    exact ih (List.forall_mem_cons.1 hslash).2 (h.spot (by simp [hparent])) hrest
      (by rw [← hhere, ← List.append_assoc, List.dropLast_concat])
  | enter _ hname hget _ _ ih =>
    rw [← hhere, List.append_assoc] at hget
    exact ih (List.forall_mem_cons.1 hslash).2 (h.spot (by simp [hget]))
      (stays_name hstays hname.not_idle hname.ne_parent) (by rw [← hhere, List.append_assoc])
  | @missing here m name rest hdir hname =>
    have hplain : IsPlain name :=
      ⟨hname.ne_empty, hname.ne_current, hname.ne_parent, (List.forall_mem_cons.1 hslash).1⟩
    exact ⟨_, rfl, Or.inr ⟨r, name, by rw [hhere], hplain, m, by rw [hhere, hdir]⟩⟩
  | lastLink _ _ hget =>
    rw [← hhere, List.append_assoc] at hget
    exact absurd hget (h.noLink _ _)
  | link _ _ hget =>
    rw [← hhere, List.append_assoc] at hget
    exact absurd hget (h.noLink _ _)

theorem Clear.trails_self (h : Clear t l) (hslash : ∀ p ∈ names, '/' ∉ p.toList)
    (hstays : stays 0 names = true) {f : Bool} {x : Trail} (htrail : t.trail f l names = .ok x) :
    ∃ k, x = .arrived k ∧ Spot t l k :=
  h.trails (r := []) hslash (Or.inl (List.append_nil l)) hstays (by rwa [List.append_nil])

theorem trail_congr_below (hsame : ∀ r, t.get? (l ++ r) = t'.get? (l ++ r))
    (hstays : stays r.length names = true) (f : Bool) :
    t.trail f (l ++ r) names = t'.trail f (l ++ r) names := by
  induction names generalizing r with
  | nil => rw [trail_nil, trail_nil]
  | cons name rest ih =>
    rw [trail, trail, ← hsame]
    cases hget : t.get? (l ++ r) with
    | none => rfl
    | some node =>
      cases node with
      | file c m => rfl
      | link target => rfl
      | dir m =>
        simp only
        by_cases h1 : name = "" ∨ name = "."
        · rw [if_pos h1, if_pos h1]
          exact ih (stays_idle hstays h1)
        rw [if_neg h1, if_neg h1]
        by_cases h2 : name = ".."
        · rw [if_pos h2, if_pos h2]
          obtain ⟨front, last, rfl, hrest⟩ := exists_concat_of_stays (h2 ▸ hstays)
          rw [← List.append_assoc, List.dropLast_concat]
          exact ih hrest
        rw [if_neg h2, if_neg h2, List.append_assoc, ← hsame, ih (stays_name hstays h1 h2)]

/-- **A walk** below the directory. -/
theorem Clear.walks (h : Clear t l) (hslash : ∀ p ∈ names, '/' ∉ p.toList)
    (hstays : stays 0 names = true) {f : Bool} {b : Nat} (hwalk : t.walk f b l names = .ok k) :
    Spot t l k := by
  cases walk_eq_ok_iff.1 hwalk with
  | arrived htrail =>
    obtain ⟨k', hk', hspot⟩ := h.trails_self hslash hstays htrail
    rwa [Trail.arrived.inj hk']
  | followed htrail =>
    obtain ⟨k', hk', -⟩ := h.trails_self hslash hstays htrail
    exact absurd hk' (by simp)

theorem Clear.walk_congr (h : Clear t l) (hslash : ∀ p ∈ names, '/' ∉ p.toList)
    (hsame : ∀ r, t.get? (l ++ r) = t'.get? (l ++ r)) (hstays : stays 0 names = true)
    (f : Bool) (b b' : Nat) :
    t.walk f b l names = t'.walk f b' l names := by
  have heq := trail_congr_below (r := []) hsame hstays f
  rw [List.append_nil] at heq
  rw [walk_eq, walk_eq, ← heq]
  cases htrail : t.trail f l names with
  | error e => rfl
  | ok x =>
    obtain ⟨k, rfl, -⟩ := h.trails_self hslash hstays htrail
    rfl

/-! ## What is listed -/

theorem Clear.nodup_below (h : Clear t l) (r : Location) :
    (t.keys.filter (l ++ r).isPrefixOf).Nodup :=
  nodup_keys_append h.nodup r

theorem Clear.names_congr (h : Clear t l) (h' : Clear t' l)
    (hsame : ∀ r, t.get? (l ++ r) = t'.get? (l ++ r)) (r : Location) :
    t.names (l ++ r) = t'.names (l ++ r) :=
  names_eq_of_mem (h.nodup_below r) (h'.nodup_below r) fun y => by rw [List.append_assoc, hsame]

theorem Clear.below_congr (h : Clear t l) (h' : Clear t' l)
    (hsame : ∀ r, t.get? (l ++ r) = t'.get? (l ++ r)) (r : Location) :
    t.below (l ++ r) = t'.below (l ++ r) := by
  have hne : l ++ r ≠ [] := by simp [h.ne_nil]
  exact below_eq_below (h.nodup_below r) hne (h'.nodup_below r) hne fun q => by
    rw [List.append_assoc, hsame]

/-! ## Changes -/

/-- The tree has the same nodes outside a location. -/
def Outside (l : Location) (t t' : Tree) : Prop := ∀ k, ¬ l <+: k → t'.get? k = t.get? k

theorem nodup_put (h : (t.keys.filter l.isPrefixOf).Nodup) (k : Location) (n : Node) :
    ((t.put k n).keys.filter l.isPrefixOf).Nodup := by
  rw [keys_put]
  by_cases hmem : k ∈ t.keys
  · rwa [if_pos hmem]
  · rw [if_neg hmem, List.filter_append, List.nodup_append]
    refine ⟨h, List.Pairwise.filter _ (by simp), fun a ha b hb => ?_⟩
    rintro rfl
    have hkey := (List.mem_filter.1 ha).1
    rw [List.mem_singleton.1 (List.mem_filter.1 hb).1] at hkey
    exact hmem hkey

theorem Clear.put (h : Clear t l) (hspot : Spot t l k) {n : Node}
    (hlink : ∀ target, n ≠ .link target)
    (hdir : n.isDir = true ∨ k ≠ l ∧ ∀ m, t.get? k ≠ some (.dir m)) : Clear (t.put k n) l := by
  have hne := hspot.ne_nil h.ne_nil
  have hget : ∀ j, (t.put k n).get? j = if j = k then some n else t.get? j := get?_put hne n
  have hstays : ∀ j m, t.get? j = some (.dir m) → ∃ m, (t.put k n).get? j = some (.dir m) := by
    intro j m hj
    rw [hget]
    by_cases hjk : j = k
    · rw [if_pos hjk]
      rcases hdir with hdir | ⟨-, hnot⟩
      · cases n with
        | dir m => exact ⟨m, rfl⟩
        | file c m => exact absurd hdir (by simp [Node.isDir])
        | link target => exact absurd hdir (by simp [Node.isDir])
      · exact absurd (hjk ▸ hj) (hnot m)
    · exact ⟨m, by rw [if_neg hjk, hj]⟩
  obtain ⟨m, hself⟩ := h.dir
  refine ⟨h.ne_nil, hstays l m hself, fun r target => ?_, fun q r hr hsome => ?_,
    fun r hsome p hp => ?_, nodup_put h.nodup k n⟩
  · rw [hget]
    split
    · simpa using hlink target
    · exact h.noLink r target
  · have hold : ∃ m, t.get? (l ++ q) = some (.dir m) := by
      rw [hget] at hsome
      split at hsome
      · next heq =>
        rw [← heq, List.append_assoc] at hspot
        exact h.above hspot hr
      · exact h.closed q r hr hsome
    obtain ⟨m, hold⟩ := hold
    exact hstays _ m hold
  · rw [hget] at hsome
    split at hsome
    · next heq => exact h.plain_spot (heq ▸ hspot) p hp
    · exact h.plain r hsome p hp

theorem Clear.outside_put (h : Clear t l) (hspot : Spot t l k) (n : Node) :
    Outside l t (t.put k n) := by
  intro j hj
  rw [get?_put (hspot.ne_nil h.ne_nil), if_neg]
  rintro rfl
  exact hj hspot.below

theorem keys_drop (t : Tree) (k : Location) :
    (t.drop k).keys = t.keys.filter fun j => !k.isPrefixOf j := by
  unfold keys drop
  rw [List.filter_map]
  rfl

theorem Clear.drop (h : Clear t l) (hr : r ≠ []) : Clear (t.drop (l ++ r)) l := by
  have hne : l ++ r ≠ [] := by simp [hr]
  have hget : ∀ j, (t.drop (l ++ r)).get? j = if (l ++ r).isPrefixOf j then none else t.get? j :=
    get?_drop hne
  have hsub : ∀ {j n}, (t.drop (l ++ r)).get? j = some n → t.get? j = some n := by
    intro j n hj
    rw [hget] at hj
    split at hj
    · exact absurd hj (by simp)
    · exact hj
  have hnone : ∀ {j}, (t.drop (l ++ r)).get? j ≠ none → ¬ l ++ r <+: j ∧ t.get? j ≠ none := by
    intro j hj
    rw [hget] at hj
    split at hj
    · exact absurd rfl hj
    · next hpre => exact ⟨by rwa [← List.isPrefixOf_iff_prefix], hj⟩
  obtain ⟨m, hself⟩ := h.dir
  refine ⟨h.ne_nil, ⟨m, ?_⟩, fun q target hq => h.noLink q target (hsub hq),
    fun q q' hq' hsome => ?_, fun q hsome => h.plain q (hnone hsome).2, ?_⟩
  · rw [hget, if_neg (by rw [List.isPrefixOf_iff_prefix]; exact not_append_prefix hr), hself]
  · obtain ⟨hnot, hold⟩ := hnone hsome
    obtain ⟨m', hm'⟩ := h.closed q q' hq' hold
    refine ⟨m', ?_⟩
    rw [hget, if_neg, hm']
    rw [List.isPrefixOf_iff_prefix]
    exact fun hpre => hnot (hpre.trans (List.prefix_append _ _))
  · rw [keys_drop, List.filter_comm]
    exact h.nodup.filter _

theorem outside_drop (hr : l ++ r ≠ []) : Outside l t (t.drop (l ++ r)) := by
  intro j hj
  rw [get?_drop hr, if_neg]
  rw [List.isPrefixOf_iff_prefix]
  exact fun hpre => hj ((List.prefix_append l r).trans hpre)

/-- After a move a node is below the new place, or is an old one that is not below either place. -/
theorem get?_moved {q p : Location} (hr : l ++ r ≠ []) (hq : l ++ q ≠ []) {n : Node} :
    (t.move (l ++ r) (l ++ q)).get? (l ++ p) = some n ↔
      (∃ rest, p = q ++ rest ∧ t.get? (l ++ (r ++ rest)) = some n) ∨
        ¬ q <+: p ∧ ¬ r <+: p ∧ t.get? (l ++ p) = some n := by
  by_cases hpre : q <+: p
  · obtain ⟨rest, rfl⟩ := hpre
    rw [← List.append_assoc, get?_move hr hq, List.append_assoc]
    simp [List.append_cancel_left_eq]
  · have hpre' : ¬ l ++ q <+: l ++ p := by rwa [List.prefix_append_right_inj]
    rw [get?_move_other hr hq hpre']
    simp only [List.prefix_append_right_inj]
    constructor
    · intro h
      split at h
      · exact absurd h (by simp)
      · next hnot => exact Or.inr ⟨hpre, hnot, h⟩
    · rintro (⟨rest, rfl, -⟩ | ⟨-, hnot, h⟩)
      · exact absurd (List.prefix_append q rest) hpre
      · rw [if_neg hnot, h]

/-- With what is at one place at another one, which is not below it and holds nothing. -/
theorem Clear.move {q : Location} (h : Clear t l) (hr : r ≠ []) (hq : q ≠ [])
    (hspot : Spot t l (l ++ q)) (hnot : ¬ l ++ r <+: l ++ q) :
    Clear (t.move (l ++ r) (l ++ q)) l := by
  have hmoved : ∀ p n, (t.move (l ++ r) (l ++ q)).get? (l ++ p) = some n ↔ _ := fun p n =>
    get?_moved (by simp [hr]) (by simp [hq])
  rw [List.prefix_append_right_inj] at hnot
  obtain ⟨m, hself⟩ := h.dir
  refine ⟨h.ne_nil, ⟨m, ?_⟩, fun p target hlink => ?_, fun a b hb hexists => ?_,
    fun p hexists => ?_, nodup_keys_move h.nodup (List.prefix_append l r)⟩
  · have hkept := (hmoved [] (.dir m)).2
    rw [List.append_nil] at hkept
    exact hkept (Or.inr ⟨by simpa using hq, by simpa using hr, hself⟩)
  · rcases (hmoved p _).1 hlink with ⟨rest, -, hold⟩ | ⟨-, -, hold⟩ <;> exact h.noLink _ target hold
  · obtain ⟨n, hn⟩ := Option.ne_none_iff_exists'.1 hexists
    rw [List.append_assoc] at hn
    rcases (hmoved _ n).1 hn with ⟨rest, hsplit, hold⟩ | ⟨hfree, hfree', hold⟩
    · by_cases hbelow : q <+: a
      · obtain ⟨c, rfl⟩ := hbelow
        rw [List.append_assoc, List.append_cancel_left_eq] at hsplit
        obtain ⟨m', hm'⟩ := h.closed (r ++ c) b hb
          (by rw [List.append_assoc, List.append_assoc, hsplit, hold]; simp)
        exact ⟨m', (hmoved _ _).2 (Or.inl ⟨c, rfl, hm'⟩)⟩
      · -- The new place lies in this directory.
        have hin : a <+: q := by
          rcases List.prefix_or_prefix_of_prefix ⟨b, rfl⟩ ⟨rest, hsplit.symm⟩ with hin | hin
          · exact hin
          · exact absurd hin hbelow
        obtain ⟨c, rfl⟩ := hin
        have hc : c ≠ [] := by
          rintro rfl
          rw [List.append_nil] at hbelow
          exact hbelow (List.prefix_refl a)
        obtain ⟨m', hm'⟩ := h.above hspot hc
        exact ⟨m', (hmoved _ _).2
          (Or.inr ⟨hbelow, fun hra => hnot (hra.trans (List.prefix_append a c)), hm'⟩)⟩
    · obtain ⟨m', hm'⟩ := h.closed a b hb (by rw [List.append_assoc, hold]; simp)
      have hout : ∀ {x}, ¬ x <+: a ++ b → ¬ x <+: a :=
        fun hx hxa => hx (hxa.trans (List.prefix_append a b))
      exact ⟨m', (hmoved _ _).2 (Or.inr ⟨hout hfree, hout hfree', hm'⟩)⟩
  · obtain ⟨n, hn⟩ := Option.ne_none_iff_exists'.1 hexists
    rcases (hmoved p n).1 hn with ⟨rest, rfl, hold⟩ | ⟨-, -, hold⟩
    · intro y hy
      rcases List.mem_append.1 hy with hy | hy
      · exact h.plain_spot hspot y hy
      · exact h.plain _ (by simp [hold]) y (List.mem_append_right r hy)
    · exact h.plain p (by simp [hold])

theorem outside_move {q : Location} (hr : l ++ r ≠ []) (hq : l ++ q ≠ []) :
    Outside l t (t.move (l ++ r) (l ++ q)) := by
  intro j hj
  have hnot : ∀ p, ¬ l ++ p <+: j := fun p hpre => hj ((List.prefix_append l p).trans hpre)
  rw [get?_move_other hr hq (hnot q), if_neg (hnot r)]

end Rebadge.Tree
