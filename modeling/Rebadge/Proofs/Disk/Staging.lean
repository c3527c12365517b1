import Rebadge.Proofs.Disk.Layout
import Rebadge.Proofs.Outcome

/-!
# Putting a file in its place

A file is put below a directory of one's own by making the directories above it and writing it. If
nothing is in its way and the path fits, this succeeds and adds the file to the layout of the
directory (`Laid.stage`). On a directory that was just made it is the only file
(`Opening.stage_only`).
-/

namespace Rebadge

open Rebadge.Path (IsPlain IsBase)

namespace Act

/-- Makes the directories above a path and writes a file there. -/
def stage (path : String) (content : Content) : Act Unit := do
  makeParents path
  change (·.write path content)

end Act

namespace Disk

variable {w : Workspace} {bases : List (List String)} {base : List String} {l : Location}
  {own : List Location} {o d : Disk} {L : Layout} {names : List String} {content : Content}

/-- **One more file** is put in its place, in directories that are made where they are missing. -/
theorem Laid.stage (h : Laid bases l own o w.disk L) (hbase : base ∈ bases)
    (hn : Names base names) (hne : names ≠ []) (hapart : (L ++ [(names, some content)]).Apart) :
    ∃ d, Act.stage ("/".intercalate (base ++ names)) content w = .ok () { w with disk := d } ∧
      Laid bases l own o d (L ++ [(names, some content)]) := by
  have hs := h.kept.scratch hbase
  obtain ⟨front, name, rfl⟩ := (List.eq_nil_or_concat' names).resolve_left hne
  have hfree := h.free hapart (List.prefix_append _ _) (Or.inl (by simp))
  have hmake : Act.makeParents ("/".intercalate (base ++ (front ++ [name]))) w =
      .ok () { w with disk := { w.disk with tree := Tree.makeWay w.disk.tree l front } } := by
    obtain ⟨parent, hparent, hmade⟩ := (hs.along_names hn).ensureParents hfree
    unfold Act.makeParents
    rw [hparent]
    exact Act.makeDirs_ok.2 (by rw [hmade]; exact ⟨rfl, rfl⟩)
  have hs' := hs.makeWay hfree
  have hlocate := hs'.locate_append hn (isDirs_makeWay hs.dir hfree) true
  have hnode : (Tree.makeWay w.disk.tree l front).get? (l ++ front ++ [name]) = none ∨
      ∃ c m, (Tree.makeWay w.disk.tree l front).get? (l ++ front ++ [name]) = some (.file c m) := by
    cases hget : (Tree.makeWay w.disk.tree l front).get? (l ++ front ++ [name]) with
    | none => exact Or.inl rfl
    | some n =>
      cases n with
      | dir m => exact absurd hget (h.ne_dir hapart m)
      | link target =>
        exact absurd (List.append_assoc l _ _ ▸ hget) (hs'.noLink (front ++ [name]) target)
      | file content' m => exact Or.inr ⟨content', m, rfl⟩
  have hwrite := write_eq hlocate (Path.endsInSlash_base (hs.isBase.append hn.plain)) hnode content
  exact ⟨_, Act.bind_ok.2 ⟨(), _, hmake, Act.change_ok.2 ⟨_, hwrite, rfl⟩⟩,
    h.addFile hn.plain hapart _⟩

theorem fits_of_stage {path : String} {w' : Workspace} (h : Act.stage path content w = .ok () w') :
    Fits path := by
  obtain ⟨_, w₁, -, hchange⟩ := Act.bind_ok.1 h
  obtain ⟨d, hwrite, -⟩ := Act.change_ok.1 hchange
  obtain ⟨k, hlocate, -⟩ := write_ok.1 hwrite
  exact (fits_of_locate hlocate).1

/-- **The only file** in a directory that was just made is the one that was put there. -/
theorem Opening.stage_only {path entry : String} (h : Opening w.disk path l)
    (hentry : ∀ p ∈ Text.split entry '/', IsPlain p) {w' : Workspace}
    (hstage : Act.stage (Path.join path entry) content { w with disk := w.disk.opened l } =
      .ok () w') :
    Laid (openedBases path l) l []
    (w.disk.opened l) w'.disk [(Text.split entry '/', some content)] ∧
      w' = { w with disk := w'.disk } := by
  have hjoin : Path.join path entry =
      "/".intercalate (Text.split path '/' ++ Text.split entry '/') := by
    conv => lhs; rw [← Text.intercalate_split path]
    exact Path.join_eq h.isBase (Path.not_isAbsolute_of_plain hentry)
  have hfits := fits_of_stage hstage
  rw [hjoin] at hstage hfits
  have hapart : Layout.Apart ([] ++ [(Text.split entry '/', some content)]) := by
    intro p hp _ q hq _
    rw [List.mem_singleton.1 hp, List.mem_singleton.1 hq]
    exact ⟨rfl, rfl⟩
  have hnew : Laid (openedBases path l) l [] (w.disk.opened l)
      ({ w with disk := w.disk.opened l } : Workspace).disk [] :=
    h.laid
  obtain ⟨d, hok, hlaid⟩ :=
    hnew.stage (List.mem_cons_self ..) ⟨hentry, hfits⟩ (Text.split_ne_nil entry '/') hapart
  rw [hok] at hstage
  cases hstage
  exact ⟨hlaid, rfl⟩

theorem Opening.wellFormed_kept {path : String} (h : Opening d path l) {e : Disk}
    (he : Kept (openedBases path l) l [] (d.opened l) e) : e.tree.WellFormed := by
  have houter : ∀ k, ¬ l <+: k → e.tree.get? k = d.tree.get? k := by
    intro k hk
    rw [he.outside k hk List.not_mem_nil, h.get?_opened, if_neg]
    rintro rfl
    exact hk (List.prefix_refl _)
  intro k r hr hsome
  by_cases hk : l <+: k
  · obtain ⟨q, rfl⟩ := hk
    exact he.clear.closed q r hr hsome
  by_cases hkr : l <+: k ++ r
  · -- the location is above the directory
    obtain ⟨q, hq⟩ : ∃ q, l = k ++ q := by
      rcases List.prefix_or_prefix_of_prefix hkr (List.prefix_append k r) with hl | ⟨q, hq⟩
      · exact absurd hl hk
      · exact ⟨q, hq.symm⟩
    exact h.isDirs he.around k q hq
  · rw [houter _ hkr] at hsome
    rw [houter k hk]
    exact h.wellFormed k r hr hsome

end Disk

theorem Tree.WellFormed.drop {t : Tree} (h : t.WellFormed) (l : Location) :
    (t.drop l).WellFormed := by
  intro k r hr hsome
  by_cases hl : l = []
  · exact absurd hsome (by simp [hl, Tree.get?, hr, Tree.drop, Tree.nodeAt])
  rw [Tree.get?_drop hl] at hsome
  split at hsome
  · exact absurd rfl hsome
  · next hkr =>
    rw [List.isPrefixOf_iff_prefix] at hkr
    rw [Tree.get?_drop hl, if_neg]
    · exact h k r hr hsome
    · rw [List.isPrefixOf_iff_prefix]
      exact fun hk => hkr (hk.trans (List.prefix_append k r))

end Rebadge
