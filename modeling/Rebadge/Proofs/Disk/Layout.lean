import Rebadge.Proofs.Disk.Making
import Rebadge.Proofs.Disk.Moving
import Rebadge.Proofs.Disk.Opened

/-!
# Files laid out in a directory

A layout is a list of files and directories at places below a directory, in the order in which they
are made. A disk has them laid out if the directory holds these, the directories on their ways, and
nothing else (`Laid`). Making one more file or directory, with the directories on its way, makes the
layout longer by one (`Laid.concat`).
-/

namespace Rebadge

/-- What a file holds. -/
def Node.content? : Node → Option Content
  | file c _ => some c
  | _ => none

/-- A file with its content, or a directory, at a place. -/
abbrev Placed := Location × Option Content

/-- Files and directories, the first one first. Of several files at one place the last one
counts. -/
abbrev Layout := List Placed

namespace Layout

variable {L M : Layout} {p : Placed} {r q : Location} {x : Option Content} {c : Content}

/-! ## What stands where -/

/-- The content of the last file at a place. -/
def fileAt : Layout → Location → Option Content
  | [], _ => none
  | p :: rest, r => (fileAt rest r).or (if p.1 = r then p.2 else none)

/-- A directory of the layout, or one on the way to something. -/
def IsDir (L : Layout) (r : Location) : Prop := ∃ p ∈ L, r <+: p.1 ∧ (r = p.1 → p.2 = none)

instance (L : Layout) (r : Location) : Decidable (L.IsDir r) :=
  decidable_of_iff (∃ p ∈ L, r <+: p.1 ∧ (r = p.1 → p.2 = none)) Iff.rfl

/-- What is at a place: a file with its content, a directory, or nothing. -/
def view (L : Layout) (r : Location) : Option (Option Content) :=
  match fileAt L r with
  | some c => some (some c)
  | none => if L.IsDir r then some none else none

/-- No file is also a directory, or on the way to something. -/
def Apart (L : Layout) : Prop :=
  ∀ p ∈ L, p.2.isSome = true → ∀ q ∈ L, p.1 <+: q.1 → p.1 = q.1 ∧ q.2.isSome = true

instance (L : Layout) : Decidable L.Apart :=
  decidable_of_iff (∀ p ∈ L, p.2.isSome = true → ∀ q ∈ L, p.1 <+: q.1 → p.1 = q.1 ∧
    q.2.isSome = true) Iff.rfl

theorem fileAt_append (L M : Layout) (r : Location) :
    (L ++ M).fileAt r = (M.fileAt r).or (L.fileAt r) := by
  induction L with
  | nil => simp [fileAt]
  | cons p L ih => rw [List.cons_append, fileAt, fileAt, ih, Option.or_assoc]

theorem fileAt_singleton (p : Placed) (r : Location) :
    fileAt [p] r = if p.1 = r then p.2 else none := by
  simp [fileAt]

theorem mem_of_fileAt (h : L.fileAt r = some c) : (r, some c) ∈ L := by
  induction L with
  | nil => exact absurd h (by simp [fileAt])
  | cons p L ih =>
    rw [fileAt, Option.or_eq_some_iff] at h
    rcases h with h | ⟨-, h⟩
    · exact List.mem_cons_of_mem _ (ih h)
    · split at h
      · next heq => exact (Prod.ext heq h : p = (r, some c)) ▸ List.mem_cons_self ..
      · exact absurd h (by simp)

theorem fileAt_ne_none (h : (r, some c) ∈ L) : L.fileAt r ≠ none := by
  induction L with
  | nil => exact absurd h List.not_mem_nil
  | cons p L ih =>
    rw [fileAt, ne_eq, Option.or_eq_none_iff, not_and]
    rcases List.mem_cons.1 h with rfl | h
    · simp
    · exact fun hnone => absurd hnone (ih h)

theorem fileAt_iff (h : (L.map Prod.fst).Nodup) : L.fileAt r = some c ↔ (r, some c) ∈ L := by
  refine ⟨mem_of_fileAt, fun hmem => ?_⟩
  induction L with
  | nil => exact absurd hmem List.not_mem_nil
  | cons p L ih =>
    rw [List.map_cons, List.nodup_cons] at h
    rw [fileAt]
    rcases List.mem_cons.1 hmem with rfl | hmem
    · have hnone : fileAt L r = none := by
        cases hfile : fileAt L r with
        | none => rfl
        | some c' => exact absurd (List.mem_map_of_mem (mem_of_fileAt hfile)) h.1
      rw [hnone, if_pos rfl, Option.none_or]
    · rw [ih h.2 hmem, Option.some_or]

theorem isDir_append : (L ++ M).IsDir r ↔ L.IsDir r ∨ M.IsDir r := by
  simp only [IsDir, List.mem_append, or_and_right, exists_or]

theorem Apart.mono (h : M.Apart) (hsub : ∀ p ∈ L, ∃ q ∈ M, q.1 = p.1 ∧ q.2.isSome = p.2.isSome) :
    L.Apart := by
  intro p hp hfile q hq hpre
  obtain ⟨p', hp', hloc, hkind⟩ := hsub p hp
  obtain ⟨q', hq', hloc', hkind'⟩ := hsub q hq
  have hapart := h p' hp' (hkind.trans hfile) q' hq' (by rwa [hloc, hloc'])
  exact ⟨by rw [← hloc, ← hloc', hapart.1], hkind' ▸ hapart.2⟩

theorem Apart.left (h : (L ++ M).Apart) : L.Apart :=
  h.mono fun p hp => ⟨p, List.mem_append_left _ hp, rfl, rfl⟩

theorem Apart.not_isDir (h : L.Apart) (hfile : L.fileAt r = some c) : ¬ L.IsDir r := by
  rintro ⟨p, hp, hpre, hdir⟩
  obtain ⟨heq, hsome⟩ := h _ (mem_of_fileAt hfile) rfl p hp hpre
  rw [hdir heq] at hsome
  exact absurd hsome (by simp)

theorem Apart.fileAt_of_isDir (h : L.Apart) (hdir : L.IsDir r) : L.fileAt r = none := by
  cases hfile : L.fileAt r with
  | none => rfl
  | some c => exact absurd hdir (h.not_isDir hfile)

theorem view_of_fileAt (h : L.fileAt r = some c) : L.view r = some (some c) := by
  rw [view, h]

theorem Apart.view_of_isDir (h : L.Apart) (hdir : L.IsDir r) : L.view r = some none := by
  rw [view, h.fileAt_of_isDir hdir]
  exact if_pos hdir

theorem view_eq_file : L.view r = some (some c) ↔ L.fileAt r = some c := by
  unfold view
  cases L.fileAt r with
  | some c' => simp
  | none => by_cases hdir : L.IsDir r <;> simp [hdir]

/-- Where no place of the layout is at or below there is nothing. -/
theorem view_eq_none (h : ∀ p ∈ L, ¬ r <+: p.1) : L.view r = none := by
  have hfile : L.fileAt r = none := by
    cases hfile : L.fileAt r with
    | none => rfl
    | some c => exact absurd (List.prefix_refl r) (h _ (mem_of_fileAt hfile))
  unfold view
  rw [hfile]
  exact if_neg fun ⟨p, hp, hpre, _⟩ => h p hp hpre

theorem view_perm (hperm : L.Perm M) (h : (L.map Prod.fst).Nodup) (r : Location) :
    L.view r = M.view r := by
  have hfile : L.fileAt r = M.fileAt r := by
    refine Option.ext fun c => ?_
    rw [fileAt_iff h, fileAt_iff ((hperm.map _).nodup_iff.1 h), hperm.mem_iff]
  have hdir : L.IsDir r ↔ M.IsDir r := by simp only [IsDir, hperm.mem_iff]
  unfold view
  rw [hfile]
  simp only [hdir]

/-- **One more** file or directory, with the directories on its way. -/
theorem Apart.view_concat (h : (L ++ [(r, x)]).Apart) (q : Location) :
    (L ++ [(r, x)]).view q = if q = r then some x else if q <+: r then some none else L.view q := by
  split
  · next heq =>
    subst heq
    cases x with
    | some c =>
      refine view_of_fileAt ?_
      rw [fileAt_append, fileAt_singleton, if_pos rfl]
      rfl
    | none => exact h.view_of_isDir ⟨(q, none), by simp, List.prefix_refl _, fun _ => rfl⟩
  next hne =>
  split
  · next hpre => exact h.view_of_isDir ⟨(r, x), by simp, hpre, fun heq => absurd heq hne⟩
  · next hpre =>
    have hfile : (L ++ [(r, x)]).fileAt q = L.fileAt q := by
      rw [fileAt_append, fileAt_singleton, if_neg (Ne.symm hne), Option.none_or]
    have hdir : (L ++ [(r, x)]).IsDir q ↔ L.IsDir q := by
      rw [isDir_append, or_iff_left]
      rintro ⟨p, hp, hpre', -⟩
      obtain rfl := List.mem_singleton.1 hp
      exact hpre hpre'
    unfold view
    rw [hfile]
    simp only [hdir]

theorem Apart.view_way (h : (L ++ [(r, x)]).Apart) (hpre : q <+: r) (hq : q ≠ r ∨ x = none) :
    ∀ c, L.view q ≠ some (some c) := by
  intro c hview
  have hdir : (L ++ [(r, x)]).IsDir q :=
    ⟨(r, x), by simp, hpre, fun heq => hq.resolve_left (not_not_intro heq)⟩
  have hfile := h.fileAt_of_isDir hdir
  rw [fileAt_append, Option.or_eq_none_iff] at hfile
  rw [view_eq_file, hfile.2] at hview
  exact absurd hview (by simp)

theorem Apart.view_place (h : (L ++ [(r, some c)]).Apart) : L.view r ≠ some none := by
  intro hview
  have hfile : (L ++ [(r, some c)]).fileAt r = some c := by
    rw [fileAt_append, fileAt_singleton, if_pos rfl]
    rfl
  refine h.not_isDir hfile (isDir_append.2 (Or.inl ?_))
  unfold view at hview
  split at hview
  · exact absurd hview (by simp)
  · split at hview
    · assumption
    · exact absurd hview (by simp)

end Layout

namespace Disk

open Rebadge.Path (IsPlain)
open Rebadge.Tree (Clear Spot IsDirs makeWay)

variable {bases : List (List String)} {l r q front : Location} {own : List Location}
  {o d d' : Disk} {L M : Layout} {x : Option Content} {c : Content} {m : Nat}
  {names : List String} {name : String}

/-! ## What operations show -/

theorem content?_makeWay {t : Tree} (hfree : Free t l names) (hq : q ≠ []) :
    ((makeWay t l names).get? (l ++ q)).map Node.content? =
      if q <+: names then some none else (t.get? (l ++ q)).map Node.content? := by
  have hget := Tree.get?_makeWay t l names (l ++ q)
  split
  · next hpre =>
    rcases hfree q hq hpre with hnone | ⟨m, hm⟩
    · rw [(hget _).2 (Or.inr ⟨hnone, rfl, q, hq, hpre, rfl⟩)]
      rfl
    · rw [(hget _).2 (Or.inl hm)]
      rfl
  · next hpre =>
    have hsame : (makeWay t l names).get? (l ++ q) = t.get? (l ++ q) := by
      refine Option.ext fun n => (hget n).trans (or_iff_left ?_)
      rintro ⟨-, -, q', -, hpre', heq⟩
      exact hpre (List.append_cancel_left heq ▸ hpre')
    rw [hsame]

theorem Kept.makeWay (h : Kept bases l own o d) (hn : ∀ p ∈ names, IsPlain p)
    (hfree : Free d.tree l names) :
    Kept bases l own o { d with tree := Tree.makeWay d.tree l names } := by
  induction names using List.reverseRecOn with
  | nil => exact h
  | append_singleton names name ih =>
    rw [Tree.makeWay_concat]
    have hkept := ih (fun p hp => hn p (List.mem_append_left _ hp)) hfree.left
    split
    · have hdirs := isDirs_makeWay h.clear.dir hfree.left
      exact hkept.put ⟨Or.inr ⟨names, name, rfl, hn name (by simp),
        hdirs.self⟩, by simp, Or.inl rfl⟩
    · exact hkept

theorem Kept.renamedIn {old new : String} (h : Kept bases l own o d) (hnew : IsPlain new) :
    Kept bases l own o (d.renamedIn l old new) := by
  unfold Disk.renamedIn
  split
  · exact h
  · next hne =>
    refine h.move (by simp) (by simp) (Or.inr ⟨[], new, by simp, hnew, ?_⟩)
      (not_prefix_of_ne hne [])
    rw [List.append_nil]
    exact h.clear.dir

/-! ## A layout on a disk -/

/-- The directory holds the files and directories of a layout. -/
structure Laid (bases : List (List String)) (l : Location) (own : List Location) (o d : Disk)
    (L : Layout) : Prop where
  kept : Kept bases l own o d
  shown : ∀ r, r ≠ [] → (d.tree.get? (l ++ r)).map Node.content? = L.view r

theorem Laid.congr (h : Laid bases l own o d L) (hview : ∀ r, L.view r = M.view r) :
    Laid bases l own o d M :=
  ⟨h.kept, fun r hr => (h.shown r hr).trans (hview r)⟩

theorem Laid.file_iff (h : Laid bases l own o d L) (hr : r ≠ []) :
    (∃ m, d.tree.get? (l ++ r) = some (.file c m)) ↔ L.fileAt r = some c := by
  rw [← Layout.view_eq_file, ← h.shown r hr]
  cases hget : d.tree.get? (l ++ r) with
  | none => simp
  | some n => cases n <;> simp [Node.content?, eq_comm]

theorem Laid.none_iff (h : Laid bases l own o d L) (hr : r ≠ []) :
    d.tree.get? (l ++ r) = none ↔ L.view r = none := by
  rw [← h.shown r hr, Option.map_eq_none_iff]

/-- What is there and no file is a directory. -/
theorem Laid.dir_of_view (h : Laid bases l own o d L) (hr : r ≠ []) (hview : L.view r = some none) :
    ∃ m, d.tree.get? (l ++ r) = some (.dir m) := by
  rw [← h.shown r hr] at hview
  cases hget : d.tree.get? (l ++ r) with
  | none => simp [hget] at hview
  | some n =>
    cases n with
    | dir m => exact ⟨m, rfl⟩
    | file c m => simp [hget, Node.content?] at hview
    | link target => exact absurd hget (h.kept.clear.noLink r target)

theorem Opening.laid {path : String} (h : Opening d path l) :
    Laid (openedBases path l) l [] (d.opened l) (d.opened l) [] := by
  refine ⟨h.kept (by simp), fun r hr => ?_⟩
  rw [h.get?_opened, if_neg (by simpa using hr), get?_append_of_free h.wellFormed h.free]
  rfl

theorem laid_empty (hwf : d.tree.WellFormed) (hnodup : (d.tree.keys.filter l.isPrefixOf).Nodup)
    (hl : l ≠ []) (hplace : Tree.IsPlace l) (hdir : ∃ m, d.tree.get? l = some (.dir m))
    (hempty : ∀ r, r ≠ [] → d.tree.get? (l ++ r) = none) : Laid ["" :: l] l [] d d [] := by
  refine ⟨⟨fun base hbase => ?_,
    ⟨hl, hdir, fun r target => ?_, fun q r hr hsome => ?_, fun r hr p hp => ?_,
      hnodup⟩, by simp, by simp, fun _ _ _ => rfl, rfl⟩, fun r hr => by rw [hempty r hr]; rfl⟩
  · rw [List.mem_singleton.1 hbase]
    exact reaches_of_place hl hplace fun t ht => isDirs_around hwf hdir ht
  · by_cases hr : r = []
    · obtain ⟨m, hm⟩ := hdir
      simp [hr, hm]
    · simp [hempty r hr]
  · rw [List.append_assoc] at hsome
    exact absurd (hempty (q ++ r) (by simp [hr])) hsome
  · by_cases hnil : r = []
    · rw [hnil] at hp
      exact absurd hp List.not_mem_nil
    · exact absurd (hempty r hnil) hr

/-- Nothing is in the way of what can be added to the layout. -/
theorem Laid.free (h : Laid bases l own o d L) (hapart : (L ++ [(r, x)]).Apart) (hpre : names <+: r)
    (hne : names ≠ r ∨ x = none) : Free d.tree l names := by
  intro q hq hqn
  have hqr : q ≠ r ∨ x = none := by
    refine hne.imp_left fun hne heq => hne ?_
    exact hpre.eq_of_length (Nat.le_antisymm hpre.length_le (heq ▸ hqn.length_le))
  have hview := hapart.view_way (hqn.trans hpre) hqr
  cases hq' : L.view q with
  | none => exact Or.inl ((h.none_iff hq).2 hq')
  | some y =>
    cases y with
    | none => exact Or.inr (h.dir_of_view hq hq')
    | some c => exact absurd hq' (hview c)

/-- **The layout with one more item**, on a disk where the rest is as it was. -/
theorem Laid.concat (h : Laid bases l own o d L) (hkept : Kept bases l own o d')
    (hapart : (L ++ [(r, x)]).Apart)
    (hnodes : ∀ q, q ≠ [] → (d'.tree.get? (l ++ q)).map Node.content? =
      if q = r then some x else if q <+: r then some none
      else (d.tree.get? (l ++ q)).map Node.content?) :
    Laid bases l own o d' (L ++ [(r, x)]) := by
  refine ⟨hkept, fun q hq => ?_⟩
  rw [hnodes q hq, hapart.view_concat, h.shown q hq]

theorem Laid.addDir (h : Laid bases l own o d L) (hn : ∀ p ∈ names, IsPlain p)
    (hapart : (L ++ [(names, none)]).Apart) :
    Laid bases l own o { d with tree := Tree.makeWay d.tree l names } (L ++ [(names, none)]) := by
  have hfree := h.free hapart (List.prefix_refl _) (Or.inr rfl)
  refine h.concat (h.kept.makeWay hn hfree) hapart fun q hq => ?_
  rw [content?_makeWay hfree hq]
  by_cases heq : q = names
  · rw [if_pos heq, if_pos (heq ▸ List.prefix_refl _)]
  · rw [if_neg heq]

theorem Laid.put (h : Laid bases l own o d L) (hkept : Kept bases l own o d') (hname : IsPlain name)
    (hparent : ∃ m, d'.tree.get? (l ++ front) = some (.dir m))
    (hself : ∀ m, d'.tree.get? (l ++ front ++ [name]) ≠ some (.dir m))
    (hways : ∀ q, q ≠ [] → q ≠ front ++ [name] → (d'.tree.get? (l ++ q)).map Node.content? =
      if q <+: front then some none else (d.tree.get? (l ++ q)).map Node.content?)
    (hapart : (L ++ [(front ++ [name], some c)]).Apart) (m : Nat) :
    Laid bases l own o (d'.put (l ++ front ++ [name]) (.file c m))
    (L ++ [(front ++ [name], some c)]) := by
  have hne : l ++ front ++ [name] ≠ l := by simp
  have hkept' := hkept.put (n := .file c m)
    ⟨Or.inr ⟨front, name, rfl, hname, hparent⟩, by simp, Or.inr ⟨hne, hself⟩⟩
  refine h.concat hkept' hapart fun q hq => ?_
  rw [show (d'.put (l ++ front ++ [name]) (.file c m)).tree.get? (l ++ q) = _
    from Tree.get?_put (by simp) _ _]
  by_cases heq : q = front ++ [name]
  · rw [if_pos heq, if_pos (by rw [heq, List.append_assoc])]
    rfl
  · rw [if_neg heq, if_neg
      (by rw [List.append_assoc]; exact fun hc => heq (List.append_cancel_left hc)), hways q hq heq]
    refine if_congr ⟨fun hpre => hpre.trans (List.prefix_append _ _), fun hpre => ?_⟩ rfl rfl
    exact (List.prefix_concat_iff.1 hpre).resolve_left heq

/-- Where a file is to be made there is no directory, once those on its way are made. -/
theorem Laid.ne_dir (h : Laid bases l own o d L) (hapart : (L ++ [(front ++ [name], some c)]).Apart)
    (m : Nat) : (Tree.makeWay d.tree l front).get? (l ++ front ++ [name]) ≠ some (.dir m) := by
  intro hdir
  have hself := content?_makeWay (q := front ++ [name])
    (h.free hapart (List.prefix_append front [name]) (Or.inl (by simp))) (by simp)
  rw [List.append_assoc] at hdir
  rw [hdir, if_neg, h.shown _ (by simp)] at hself
  · exact hapart.view_place hself.symm
  · exact fun hpre => absurd hpre.length_le (by simp)

theorem Laid.addFile (h : Laid bases l own o d L) (hn : ∀ p ∈ front ++ [name], IsPlain p)
    (hapart : (L ++ [(front ++ [name], some c)]).Apart) (m : Nat) :
    Laid bases l own o (({ d with tree := Tree.makeWay d.tree l front } : Disk).put
      (l ++ front ++ [name]) (.file c m)) (L ++ [(front ++ [name], some c)]) := by
  have hfree := h.free hapart (List.prefix_append front [name]) (Or.inl (by simp))
  have hfront : ∀ p ∈ front, IsPlain p := fun p hp => hn p (List.mem_append_left _ hp)
  exact h.put (h.kept.makeWay hfront hfree) (hn name (by simp))
    (isDirs_makeWay h.kept.clear.dir hfree).self
    (h.ne_dir hapart) (fun q hq _ => content?_makeWay hfree hq) hapart m

theorem Laid.overwrite (h : Laid bases l own o d L) (hname : IsPlain name)
    (hapart : (L ++ [(front ++ [name], some c)]).Apart) {c' : Content} {m : Nat}
    (hfile : d.tree.get? (l ++ front ++ [name]) = some (.file c' m)) :
    Laid bases l own o (d.put (l ++ front ++ [name]) (.file c m))
    (L ++ [(front ++ [name], some c)]) := by
  have hdirs : ∀ q, q <+: front → ∃ m, d.tree.get? (l ++ q) = some (.dir m) := by
    rintro q ⟨rest, rfl⟩
    refine h.kept.clear.closed q (rest ++ [name]) (by simp) ?_
    rw [show l ++ q ++ (rest ++ [name]) = l ++ (q ++ rest) ++ [name] by simp, hfile]
    simp
  refine h.put h.kept hname (hdirs front (List.prefix_refl _)) (fun m hm => ?_)
    (fun q hq _ => ?_) hapart m
  · rw [hfile] at hm
    exact absurd hm (by simp)
  · split
    · next hpre =>
      obtain ⟨m, hm⟩ := hdirs q hpre
      rw [hm]
      rfl
    · rfl

theorem Laid.chmod (h : Laid bases l own o d L) (hn : ∀ p ∈ front ++ [name], IsPlain p)
    (hdir : ∃ m, d.tree.get? (l ++ front ++ [name]) = some (.dir m)) (m : Nat) :
    Laid bases l own o (d.put (l ++ front ++ [name]) (.dir m)) L := by
  obtain ⟨m', hdir⟩ := hdir
  have hparent := h.kept.clear.closed front [name] (by simp) (by rw [hdir]; simp)
  refine ⟨h.kept.put ⟨Or.inr ⟨front, name, rfl, hn name (by simp), hparent⟩, by simp, Or.inl rfl⟩,
    fun r hr => ?_⟩
  rw [show (d.put (l ++ front ++ [name]) (.dir m)).tree.get? (l ++ r) = _
    from Tree.get?_put (by simp) _ _, ← h.shown r hr]
  split
  · next heq => rw [heq, hdir]; rfl
  · rfl

end Disk
end Rebadge
