import Rebadge.Archiver.Tar
import Rebadge.Proofs.Disk.Twins

/-!
# A directory of one's own

A directory is made at a free place, worked in, and removed (`Opening`). Its own path leads there
all the while, and so does the absolute one (`Opening.kept`), for a path leads to places with names
that a directory can hold (`isPlace_of_locate`). Other paths lead where they led
(`Opening.locate_kept`), and when the directory is gone at most the files of one's own have changed
(`Opening.get?_removed`).
-/

namespace Rebadge

namespace Tree

variable {t : Tree} {f : Bool} {here k : Location} {b : Nat} {names : List String} {r : Trail}

/-! ## Names of places -/

/-- All names of the location are names that a directory can hold. -/
def IsPlace (l : Location) : Prop := ∀ p ∈ l, IsName p ∧ '/' ∉ p.toList

/-- A trail ends at such a location, or is interrupted in one. -/
def Trail.Placed : Trail → Prop
  | .arrived l => IsPlace l
  | .atLink dir _ rest => IsPlace dir ∧ ∀ p ∈ rest, '/' ∉ p.toList

theorem IsPlace.dropLast (h : IsPlace here) : IsPlace here.dropLast :=
  fun p hp => h p (List.dropLast_sublist here |>.mem hp)

theorem IsPlace.concat {name : String} (h : IsPlace here) (hname : IsName name)
    (hslash : '/' ∉ name.toList) : IsPlace (here ++ [name]) := by
  intro p hp
  rcases List.mem_append.1 hp with hp | hp
  · exact h p hp
  · rw [List.mem_singleton.1 hp]
    exact ⟨hname, hslash⟩

theorem placed_of_trail (hhere : IsPlace here) (hslash : ∀ p ∈ names, '/' ∉ p.toList)
    (h : t.trail f here names = .ok r) : r.Placed := by
  rw [trail_eq_ok_iff] at h
  induction h with
  | done => exact hhere
  | stay _ _ _ ih => exact ih hhere (List.forall_mem_cons.1 hslash).2
  | up _ _ ih => exact ih hhere.dropLast (List.forall_mem_cons.1 hslash).2
  | enter _ hname _ _ _ ih =>
    obtain ⟨hplain, hrest⟩ := List.forall_mem_cons.1 hslash
    exact ih (hhere.concat hname hplain) hrest
  | missing _ hname => exact hhere.concat hname (List.forall_mem_cons.1 hslash).1
  | lastLink _ hname => exact hhere.concat hname (List.forall_mem_cons.1 hslash).1
  | link => exact ⟨hhere, (List.forall_mem_cons.1 hslash).2⟩

theorem isPlace_of_walk (hhere : IsPlace here) (hslash : ∀ p ∈ names, '/' ∉ p.toList)
    (h : t.walk f b here names = .ok k) : IsPlace k := by
  rw [walk_eq_ok_iff] at h
  induction h with
  | arrived htrail => exact placed_of_trail hhere hslash htrail
  | followed htrail _ ih =>
    obtain ⟨hdir, hrest⟩ := placed_of_trail hhere hslash htrail
    refine ih ?_ fun p hp => ?_
    · unfold linkStart
      split
      · exact fun p hp => absurd hp List.not_mem_nil
      · exact hdir
    · rcases List.mem_append.1 hp with hp | hp
      · exact Text.not_mem_of_mem_split hp
      · exact hrest p hp

end Tree

namespace Disk

open Rebadge.Path (IsPlain IsBase)
open Rebadge.Tree (IsName IsPlace)

variable {d e : Disk} {path : String} {l k : Location} {own : List Location}

/-- **A path leads to a place**, wherever it starts. -/
theorem isPlace_of_locate (hcwd : IsPlace d.cwd) {f : Bool} (h : d.locate path f = .ok k) :
    IsPlace k := by
  refine Tree.isPlace_of_walk ?_ (fun p hp => Text.not_mem_of_mem_split hp) (fits_of_locate h).2
  unfold startOf
  split
  · exact fun p hp => absurd hp List.not_mem_nil
  · exact hcwd

/-! ## Absolute paths -/

theorem locationText_eq (hl : l ≠ []) :
    Archiver.Native.locationText l = "/".intercalate ("" :: l) := by
  unfold Archiver.Native.locationText
  rw [← List.singleton_append, Text.intercalate_append (by simp) hl, String.intercalate_singleton,
    String.empty_append]

/-- The absolute path of a place leads there while all above it are directories. -/
theorem reaches_of_place (hl : l ≠ []) (hplace : IsPlace l)
    (hdirs : ∀ t, Tree.Around l d.tree t → Tree.IsDirs t [] l) : Reaches d ("" :: l) l := by
  have hslash : ∀ p ∈ "" :: l, '/' ∉ p.toList := by
    intro p hp
    rcases List.mem_cons.1 hp with rfl | hp
    · simp
    · exact (hplace p hp).2
  have hbase : IsBase ("" :: l) := by
    refine ⟨hslash, "" :: l.dropLast, l.getLast hl, ?_, ?_⟩
    · rw [List.cons_append, List.dropLast_concat_getLast]
    · have hname := (hplace _ (List.getLast_mem hl)).1
      exact ⟨hname.ne_empty, hname.ne_current⟩
  refine ⟨hbase, fun t ht f => ?_⟩
  have hstart : d.startOf ("/".intercalate ("" :: l)) = [] := by
    unfold startOf
    rw [Path.isAbsolute_intercalate hslash, if_pos]
    have hlength := List.length_pos_iff.2 hl
    simpa using hlength
  have hroot : t.get? [] = some (.dir 0o755) := rfl
  have htrail : t.trail f [] ("" :: l) = .ok (.arrived l) := by
    rw [Tree.trail_stay hroot (Or.inl rfl)]
    have harrived := Tree.trail_isDirs (hdirs t ht) (fun p hp => (hplace p hp).1) f []
    rwa [List.append_nil, List.nil_append, Tree.trail_nil] at harrived
  rw [hstart]
  exact Tree.walk_of_trail htrail

/-- All above a directory are directories, and stay so while only what is in it changes. -/
theorem isDirs_around (hwf : d.tree.WellFormed) (hl : ∃ m, d.tree.get? l = some (.dir m)) {t : Tree}
    (ht : Tree.Around l d.tree t) : Tree.IsDirs t [] l := by
  intro q r hqr
  rw [List.nil_append]
  by_cases hr : r = []
  · rw [hr, List.append_nil] at hqr
    exact hqr ▸ ht.dir
  · obtain ⟨m, hdir⟩ := hl
    obtain ⟨m', hq⟩ := hwf q r hr (by simp [← hqr, hdir])
    have hnot : ¬ l <+: q := fun hpre => by
      have hlength := hpre.length_le
      rw [hqr, List.length_append] at hlength
      exact hr (List.length_eq_zero_iff.1 (by omega))
    obtain ⟨n', hn', hlike⟩ := ht.others q _ hnot hq
    cases hlike with
    | dir m m' => exact ⟨m', hn'⟩

/-! ## A new directory -/

/-- A path to a free place where a directory can be made. -/
structure Opening (d : Disk) (path : String) (l : Location) : Prop where
  wellFormed : d.tree.WellFormed
  isBase : IsBase (Text.split path '/')
  locate : d.locate path false = .ok l
  free : d.tree.get? l = none
  isPlace : IsPlace l

/-- The disk with the directory. -/
def opened (d : Disk) (l : Location) : Disk := d.put l (.dir newDirMode)

/-- The pieces of the paths that lead there: the given one and the absolute one. -/
def openedBases (path : String) (l : Location) : List (List String) :=
  [Text.split path '/', "" :: l]

theorem Opening.ne_nil (h : Opening d path l) : l ≠ [] := by
  rintro rfl
  have hfree := h.free
  rw [Tree.get?, if_pos rfl] at hfree
  exact absurd hfree (by simp)

theorem Opening.get?_opened (h : Opening d path l) (k : Location) :
    (d.opened l).tree.get? k = if k = l then some (.dir newDirMode) else d.tree.get? k :=
  Tree.get?_put h.ne_nil _ k

theorem inner_openedPath (path : String) (l : Location) : Inner (openedBases path l) path := by
  rw [← Text.intercalate_split path]
  exact inner_of_mem (by simp [openedBases, Text.intercalate_split])

theorem inner_locationText (path : String) (hl : l ≠ []) :
    Inner (openedBases path l) (Archiver.Native.locationText l) := by
  rw [locationText_eq hl]
  exact inner_of_mem (by simp [openedBases])

theorem Opening.apart (h : Opening d path l) (hk : d.tree.get? k ≠ none) : ¬ l <+: k := by
  rintro ⟨r, rfl⟩
  exact hk (get?_append_of_free h.wellFormed h.free r)

theorem Opening.get?_opened_of_some (h : Opening d path l) (hk : d.tree.get? k ≠ none) :
    (d.opened l).tree.get? k = d.tree.get? k := by
  rw [h.get?_opened, if_neg]
  rintro rfl
  exact hk h.free

theorem Opening.scratch (h : Opening d path l) : Scratch (d.opened l) (Text.split path '/') l := by
  refine scratch_of_locate h.isBase h.wellFormed ?_ h.free
  rw [Text.intercalate_split]
  exact h.locate

theorem Opening.isDirs (h : Opening d path l) {t : Tree} (ht : Tree.Around l (d.opened l).tree t) :
    Tree.IsDirs t [] l := by
  intro q r hqr
  rw [List.nil_append]
  by_cases hr : r = []
  · rw [hr, List.append_nil] at hqr
    exact hqr ▸ ht.dir
  · have hwalk := (fits_of_locate h.locate).2
    obtain ⟨k, name, rfl, m, hdir⟩ :=
      (Tree.reachable_of_walk h.wellFormed (Text.split_ne_nil _ _) hwalk).resolve_left
        (by simp [h.free])
    obtain ⟨rest, rfl⟩ : ∃ rest, k = q ++ rest := by
      rw [← List.dropLast_concat_getLast hr, ← List.append_assoc] at hqr
      exact ⟨r.dropLast, (List.append_inj' hqr rfl).1⟩
    obtain ⟨m', hq⟩ : ∃ m, d.tree.get? q = some (.dir m) := by
      by_cases hnil : rest = []
      · exact ⟨m, by rwa [hnil, List.append_nil] at hdir⟩
      · exact h.wellFormed q rest hnil (by simp [hdir])
    have hsome : d.tree.get? q ≠ none := by simp [hq]
    obtain ⟨n', hn', hlike⟩ :=
      ht.others q (.dir m') (h.apart hsome) (by rw [h.get?_opened_of_some hsome, hq])
    cases hlike with
    | dir m m' => exact ⟨m', hn'⟩

theorem Opening.reaches_absolute (h : Opening d path l) : Reaches (d.opened l) ("" :: l) l :=
  reaches_of_place h.ne_nil h.isPlace fun _ ht => h.isDirs ht

/-- **A new directory** is one without links that both paths lead to, and nothing else has
changed. -/
theorem Opening.kept (h : Opening d path l)
    (hown : ∀ k ∈ own, ∃ c m, d.tree.get? k = some (.file c m)) :
    Kept (openedBases path l) l own (d.opened l) (d.opened l) := by
  have hscratch := h.scratch
  have hfile : ∀ k ∈ own, ∃ c m, (d.opened l).tree.get? k = some (.file c m) := by
    intro k hk
    obtain ⟨c, m, hfile⟩ := hown k hk
    exact ⟨c, m, by rw [h.get?_opened_of_some (by simp [hfile]), hfile]⟩
  refine ⟨fun base hbase => ?_,
    ⟨h.ne_nil, hscratch.dir, hscratch.noLink, hscratch.closed, fun r hr p hp => ?_, hscratch.nodup⟩,
    fun k hk => ?_, fun k hk => ⟨hfile k hk, hfile k hk⟩, fun _ _ _ => rfl, rfl⟩
  · rcases List.mem_cons.1 hbase with rfl | hbase
    · exact hscratch.reaches
    · rw [List.mem_singleton.1 hbase]
      exact h.reaches_absolute
  · rw [h.get?_opened] at hr
    split at hr
    · next heq =>
      rw [List.append_right_eq_self.1 heq] at hp
      exact absurd hp List.not_mem_nil
    · exact absurd (get?_append_of_free h.wellFormed h.free r) hr
  · obtain ⟨c, m, hfile⟩ := hown k hk
    exact h.apart (by simp [hfile])

/-! ## While it is there -/

theorem Opening.extends (h : Opening d path l)
    (he : Kept (openedBases path l) l own (d.opened l) e) : Tree.Extends d.tree e.tree := by
  intro k n hn
  have hsome : d.tree.get? k ≠ none := by simp [hn]
  obtain ⟨n', hn', hlike⟩ :=
    he.around.others k n (h.apart hsome) (by rw [h.get?_opened_of_some hsome, hn])
  exact ⟨n', hn', hlike⟩

theorem Opening.locate_kept (h : Opening d path l)
    (he : Kept (openedBases path l) l own (d.opened l) e) {p : String} {f : Bool}
    (hlocate : d.locate p f = .ok k) (hk : d.tree.get? k ≠ none) : e.locate p f = .ok k :=
  locate_of_extends (h.extends he) he.cwd hlocate hk

theorem Kept.find_opened {o : Disk} (he : Kept (openedBases path l) l own o e) {f : Bool} {n : Node}
    (hfind : e.find path f = .ok (k, n)) : k = l := by
  obtain ⟨hlocate, -⟩ := find_ok.1 hfind
  have harrives := he.arrives (List.mem_cons_self ..) f
  rw [Text.intercalate_split] at harrives
  rw [locate_eq (fits_of_locate hlocate).1, harrives] at hlocate
  exact (Except.ok.inj hlocate).symm

/-- Only the files of one's own change. -/
theorem Opening.get?_kept (h : Opening d path l)
    (he : Kept (openedBases path l) l own (d.opened l) e) (hk : d.tree.get? k ≠ none)
    (hown : k ∉ own) : e.tree.get? k = d.tree.get? k := by
  rw [he.outside k (h.apart hk) hown, h.get?_opened_of_some hk]

theorem Opening.read_kept (h : Opening d path l)
    (he : Kept (openedBases path l) l [] (d.opened l) e) {p : String} {c : Content}
    (hread : d.read p = .ok c) : e.read p = .ok c := by
  obtain ⟨k, m, hfind⟩ := read_ok.1 hread
  obtain ⟨hlocate, hget⟩ := find_ok.1 hfind
  have hk : d.tree.get? k ≠ none := by simp [hget]
  exact read_ok.2 ⟨k, m,
    find_eq (h.locate_kept he hlocate hk) ((h.get?_kept he hk List.not_mem_nil).trans hget)⟩

/-! ## When it is gone -/

/-- **The directory is removed** with all that is in it. -/
theorem Opening.remove (h : Opening d path l)
    (he : Kept (openedBases path l) l own (d.opened l) e) :
    e.remove path = .ok { e with tree := e.tree.drop l } := by
  obtain ⟨m, hdir⟩ := he.clear.dir
  have harrives := he.arrives (List.mem_cons_self ..) false
  rw [Text.intercalate_split] at harrives
  have hfind : e.find path false = .ok (l, .dir m) := by
    refine find_eq ?_ hdir
    rw [locate_eq (fits_of_locate h.locate).1, harrives]
    rfl
  unfold Disk.remove
  rw [hfind]
  rfl

theorem Opening.get?_removed (h : Opening d path l)
    (he : Kept (openedBases path l) l own (d.opened l) e) (k : Location) :
    (e.tree.drop l).get? k = if k ∈ own then e.tree.get? k else d.tree.get? k := by
  rw [Tree.get?_drop h.ne_nil]
  simp only [List.isPrefixOf_iff_prefix]
  by_cases hpre : l <+: k
  · rw [if_pos hpre, if_neg fun hown => he.apart k hown hpre]
    obtain ⟨r, rfl⟩ := hpre
    exact (get?_append_of_free h.wellFormed h.free r).symm
  · rw [if_neg hpre]
    split
    · rfl
    · next hown =>
      rw [he.outside k hpre hown, h.get?_opened, if_neg]
      rintro rfl
      exact hpre (List.prefix_refl _)

end Disk
end Rebadge
