import Rebadge.Proofs.Archiver.Editing
import Rebadge.Proofs.Archiver.EntryName
import Rebadge.Proofs.Archiver.Links
import Rebadge.Proofs.Disk.Joining

/-!
# What extraction leaves alone

Whatever the entries of an archive are called, and however their extraction ends: it makes
directories and writes files below the destination only, as long as there are no links there
(`confined_extractEntries`). Each step keeps this (`Confined.makeDir`, `Confined.write`), since the
path of an entry that is not refused never leads up above its start.
-/

namespace Rebadge.Archiver.Native

open Act (Keeps)
open Rebadge.Tree (LinksFrom Extends stays)

variable {w₀ w : Workspace} {archive dest name part : String} {l k : Location} {names : List String}

/-- A workspace that differs from another one in what a directory holds. What was there before
stays, up to files that the listed paths lead to. -/
structure Confined (w₀ w : Workspace) (dest : String) (l : Location) (names : List String) :
    Prop where
  rest : w = { w₀ with disk := w.disk }
  cwd : w.disk.cwd = w₀.disk.cwd
  /-- Nothing outside the directory is made or changed. -/
  outside : ∀ k, ¬ l <+: k → w.disk.tree.get? k = w₀.disk.tree.get? k
  /-- Directories, files and links stay what they are. -/
  grown : Extends w₀.disk.tree w.disk.tree
  /-- There are no new links. -/
  links : LinksFrom w₀.disk.tree w.disk.tree
  /-- Only files at the listed paths have changed. -/
  kept : ∀ k n, w₀.disk.tree.get? k = some n → w.disk.tree.get? k = some n ∨
    ∃ name ∈ names, w.disk.locate (Path.join dest name) true = .ok k

theorem Confined.refl (w : Workspace) (dest : String) (l : Location) (names : List String) :
    Confined w w dest l names :=
  ⟨rfl, rfl, fun _ _ => rfl, .refl _, fun _ _ h => h, fun _ _ h => Or.inl h⟩

/-- What a path leads to stays there, unless it is one of the files. -/
theorem Confined.find (h : Confined w₀ w dest l names) {path : String} {n : Node}
    (hfind : w₀.disk.find path true = .ok (k, n)) : w.disk.find path true = .ok (k, n) ∨
      ∃ name ∈ names, w.disk.locate (Path.join dest name) true = .ok k := by
  obtain ⟨hlocate, hget⟩ := Disk.find_ok.1 hfind
  have hlocate' := Disk.locate_of_extends h.grown h.cwd hlocate (by simp [hget])
  exact (h.kept k n hget).imp_left (Disk.find_eq hlocate')

/-! ## Steps -/

theorem Confined.put (h : Confined w₀ w dest l names) {n : Node} (hk : l <+: k) (hne : k ≠ [])
    (hext : Extends w.disk.tree (w.disk.put k n).tree)
    (hlinks : LinksFrom w.disk.tree (w.disk.put k n).tree) (hnode : w.disk.tree.get? k = none ∨
      ∃ name ∈ names, w.disk.locate (Path.join dest name) true = .ok k) :
    Confined w₀ { w with disk := w.disk.put k n } dest l names := by
  have hget : ∀ j, j ≠ k → (w.disk.put k n).tree.get? j = w.disk.tree.get? j := fun j hj => by
    rw [show (w.disk.put k n).tree.get? j = _ from Tree.get?_put hne n j, if_neg hj]
  refine ⟨?_, h.cwd, fun j hj => ?_, h.grown.trans hext, h.links.trans hlinks, fun j m hj => ?_⟩
  · rw [h.rest]
  · rw [hget j fun heq => hj (heq ▸ hk), h.outside j hj]
  · obtain ⟨m', hm', -⟩ := h.grown j m hj
    have hsome : w.disk.tree.get? j ≠ none := by simp [hm']
    have hlocate : ∀ p, w.disk.locate p true = .ok j → (w.disk.put k n).locate p true = .ok j :=
      fun p hp => Disk.locate_of_extends hext rfl hp hsome
    by_cases hjk : j = k
    · subst hjk
      obtain ⟨name, hname, hp⟩ := hnode.resolve_left hsome
      exact Or.inr ⟨name, hname, hlocate _ hp⟩
    · refine (h.kept j m hj).imp (fun hkept => by rw [hget j hjk, hkept]) ?_
      rintro ⟨name, hname, hp⟩
      exact ⟨name, hname, hlocate _ hp⟩

section Steps

variable (hdest : w₀.disk.Leads dest l)
  (hlink : ∀ r target, w₀.disk.tree.get? (l ++ r) ≠ some (.link target))

include hdest in
theorem Confined.leads (h : Confined w₀ w dest l names) : w.disk.Leads dest l :=
  hdest.extends h.grown h.cwd

include hlink in
theorem Confined.noLink (h : Confined w₀ w dest l names) (r : Location) (target : String) :
    w.disk.tree.get? (l ++ r) ≠ some (.link target) := fun hget => hlink r target (h.links _ _ hget)

include hdest hlink

/-- **A directory is made** above a path that stays below. -/
theorem Confined.makeDir (h : Confined w₀ w dest l names) (hpart : Path.isAbsolute part = false)
    (hstays : stays 0 (Text.split part '/') = true) {q : String}
    (hq : Path.IsLeading (Text.split (Path.join dest part) '/')
      (Path.isAbsolute (Path.join dest part)) q) {d : Disk} (hmake : w.disk.makeDir q = .ok d) :
      Confined w₀ { w with disk := d } dest l names := by
  obtain ⟨k, hbelow, hnone, rfl⟩ :=
    (h.leads hdest).makeDir_below (h.noLink hlink) hpart hstays hq hmake
  exact h.put hbelow (Tree.ne_nil_of_none hnone) (Disk.makeDir_extends hmake)
    (Disk.makeDir_linksFrom hmake) (Or.inl hnone)

theorem Confined.ensureDirs (h : Confined w₀ w dest l names) (hpart : Path.isAbsolute part = false)
    (hstays : stays 0 (Text.split part '/') = true) {path : String}
    (hpath : Path.IsLeading (Text.split (Path.join dest part) '/')
      (Path.isAbsolute (Path.join dest part)) path) :
    Confined w₀ { w with disk := (w.disk.ensureDirs path).1 } dest l names := by
  refine Disk.ensureAncestors_keeps (P := fun d => Confined w₀ { w with disk := d } dest l names)
    (fun q hq d d' hd hmake => ?_) h
  exact hd.makeDir hdest hlink hpart hstays ((Path.isLeading_of_mem_ancestors hq).trans hpath) hmake

/-- **A file is written** at a listed path that stays below. -/
theorem Confined.write (h : Confined w₀ w dest l names) (hname : name ∈ names)
    (hpart : Path.isAbsolute name = false) (hstays : stays 0 (Text.split name '/') = true)
    {c : Content} {d : Disk} (hwrite : w.disk.write (Path.join dest name) c = .ok d) :
    Confined w₀ { w with disk := d } dest l names := by
  have hext := Disk.write_extends hwrite
  have hlinks := Disk.write_linksFrom hwrite
  obtain ⟨k, hlocate, hput⟩ := Disk.write_ok.1 hwrite
  have hbelow := (h.leads hdest).locate_below (h.noLink hlink) hpart hstays hlocate
  have hne : k ≠ [] := by
    rcases hput with ⟨hnone, -⟩ | ⟨c', mode, hfile, -⟩
    · exact Tree.ne_nil_of_none hnone
    · exact Tree.ne_nil_of_file hfile
  rcases hput with ⟨-, -, rfl⟩ | ⟨c', mode, -, rfl⟩
  · exact h.put hbelow hne hext hlinks (Or.inr ⟨name, hname, hlocate⟩)
  · exact h.put hbelow hne hext hlinks (Or.inr ⟨name, hname, hlocate⟩)

/-! ## Entries -/

theorem keeps_extractEntry (hname : name ∈ names) (archive : String)
    (entries : List (Zip.Entry Content)) :
    Keeps (Confined w₀ · dest l names) (extractEntry archive entries dest name) := by
  unfold extractEntry
  cases Zip.find? entries name with
  | none => exact Act.keeps_throw _
  | some e =>
    dsimp only
    split
    · exact Act.keeps_throw_bind _ _
    next henclosed =>
    obtain ⟨hpart, hstays⟩ := stays_of_isEnclosed (by simpa using henclosed)
    have hself : Path.IsLeading (Text.split (Path.join dest name) '/')
        (Path.isAbsolute (Path.join dest name)) (Path.join dest name) :=
        Or.inr (Or.inr ⟨rfl, List.prefix_refl _⟩)
    split
    · exact Act.keeps_makeDirs fun w hw => hw.ensureDirs hdest hlink hpart hstays hself
    refine Keeps.bind ?_ fun _ => Act.keeps_disk.bind fun _ =>
      Keeps.bind (Act.keeps_change fun w d hw hwrite => ?_) fun _ => ?_
    · unfold Act.makeParents
      split
      · next parent hparent =>
        exact Act.keeps_makeDirs fun w hw => hw.ensureDirs hdest hlink hpart hstays
          (Path.isLeading_parent? hparent)
      · exact Act.keeps_pure ()
    · exact hw.write hdest hlink hname hpart hstays hwrite
    · split
      · exact Act.keeps_throw _
      · exact Act.keeps_pure ()

/-- **Extraction is confined** to its destination, whether it succeeds or fails. -/
theorem confined_extractEntries (archive : String) (names : List String) :
    Confined w₀ (Act.leaves (extractEntries archive names dest) w₀) dest l names := by
  have hkeeps : Keeps (Confined w₀ · dest l names) (extractEntries archive names dest) := by
    refine Keeps.bind (keeps_openZip _ archive) fun entries => ?_
    exact Act.keeps_forM fun name hname => keeps_extractEntry hdest hlink hname archive entries
  exact hkeeps w₀ (.refl w₀ dest l names)

end Steps

end Rebadge.Archiver.Native
