import Rebadge.Proofs.Act
import Rebadge.Proofs.Archiver.Editing
import Rebadge.Proofs.Archiver.EntryName
import Rebadge.Proofs.Disk.Making
import Rebadge.Proofs.Zip

/-!
# Extraction

An entry is extracted where its path leads along its names and nothing but a file is in its way,
which must not be the archive itself (`extractEntry_along`). In a scratch directory it is enough
that the path fits (`extractEntry_ok`). After entries without conflicts were extracted, the scratch
directory holds exactly what they stand for (`Extracted.append`).
-/

namespace Rebadge.Archiver.Native

open Disk (Scratch Fits Free newDirMode newFileMode writtenMode)
open Rebadge.Tree (IsDirs Extends makeWay)

variable {w w' : Workspace} {d₀ d : Disk} {archive : String} {base : List String}
  {t : Tree} {l k la : Location} {e : Zip.Entry Content}

/-! ## The place of an entry -/

/-- Nothing is in the way of an entry but a file that it takes the place of. -/
structure Passable (t : Tree) (l : Location) (name : String) : Prop where
  dirs : Free t l (entryDirs name)
  file : Path.endsInSlash name = false →
    t.get? (l ++ entryPath name) = none ∨
    ∃ c mode, t.get? (l ++ entryPath name) = some (.file c mode)

/-- The tree after an entry was extracted below a location, in the place of a file that may be
there. -/
def stored (t : Tree) (l : Location) (e : Zip.Entry Content) : Tree :=
  if Path.endsInSlash e.name then makeWay t l (entryDirs e.name)
  else (makeWay t l (entryDirs e.name)).put (l ++ entryPath e.name)
    (.file e.data (writtenMode t (l ++ entryPath e.name)))

theorem get?_stored_of_ne (hk : Path.endsInSlash e.name = false → k ≠ l ++ entryPath e.name) :
    (stored t l e).get? k = (makeWay t l (entryDirs e.name)).get? k := by
  unfold stored
  split
  · rfl
  · next hslash =>
    have hne : l ++ entryPath e.name ≠ [] := by simp [entryPath_ne_nil]
    rw [Tree.get?_put hne, if_neg (hk (by simpa using hslash))]

theorem get?_stored_self (hslash : Path.endsInSlash e.name = false) :
    ∃ mode, (stored t l e).get? (l ++ entryPath e.name) = some (.file e.data mode) := by
  have hne : l ++ entryPath e.name ≠ [] := by simp [entryPath_ne_nil]
  unfold stored
  rw [if_neg (by simp [hslash]), Tree.get?_put hne, if_pos rfl]
  exact ⟨_, rfl⟩

theorem get?_stored_of_some {n : Node}
    (hk : Path.endsInSlash e.name = false → k ≠ l ++ entryPath e.name) (hget : t.get? k = some n) :
    (stored t l e).get? k = some n := by
  rw [get?_stored_of_ne hk]
  exact (Tree.get?_makeWay _ _ _ _ _).2 (Or.inl hget)

theorem Passable.extends (h : Passable t l e.name) : Extends t (stored t l e) := by
  intro k n hn
  by_cases hk : Path.endsInSlash e.name = false ∧ k = l ++ entryPath e.name
  · obtain ⟨hslash, rfl⟩ := hk
    obtain ⟨mode, hfile⟩ := get?_stored_self (t := t) (l := l) hslash
    refine ⟨_, hfile, ?_⟩
    rcases h.file hslash with hnone | ⟨c, m, hold⟩
    · rw [hnone] at hn
      exact absurd hn (by simp)
    · rw [hold, Option.some.injEq] at hn
      exact hn ▸ .file ..
  · exact ⟨n, get?_stored_of_some (fun hslash heq => hk ⟨hslash, heq⟩) hn, .refl n⟩

/-! ## The archive -/

/-- The path leads to an archive. -/
def HasArchive (d : Disk) (path : String) (la : Location) : Prop :=
  ∃ c mode, d.find path true = .ok (la, .file c mode) ∧ c.zipEntries.toOption.isSome = true

theorem Stored.hasArchive {entries : List (Zip.Entry Content)}
    (h : Stored d₀ d archive la entries) : HasArchive d archive la := by
  obtain ⟨mode, hfile⟩ := h.file
  exact ⟨.zip entries, mode, Disk.find_eq (h.locate true) hfile, rfl⟩

theorem HasArchive.extends {d' : Disk} (h : HasArchive d archive la) (hext : Extends d.tree d'.tree)
    (hcwd : d'.cwd = d.cwd) (hkept : ∀ n, d.tree.get? la = some n → d'.tree.get? la = some n) :
    HasArchive d' archive la := by
  obtain ⟨c, mode, hfind, hzip⟩ := h
  obtain ⟨hlocate, hget⟩ := Disk.find_ok.1 hfind
  exact ⟨c, mode, Disk.find_eq (Disk.locate_of_extends hext hcwd hlocate (by simp [hget]))
    (hkept _ hget), hzip⟩

theorem HasArchive.makeWay (h : HasArchive d archive la) (l : Location) (names : List String) :
    HasArchive { d with tree := Tree.makeWay d.tree l names } archive la :=
  h.extends (Tree.extends_makeWay _ _ _) rfl fun _ hn => (Tree.get?_makeWay ..).2 (Or.inl hn)

theorem HasArchive.stored (h : HasArchive d archive la) (hpass : Passable d.tree l e.name)
    (hapart : Path.endsInSlash e.name = false → la ≠ l ++ entryPath e.name) :
    HasArchive { d with tree := Native.stored d.tree l e } archive la :=
  h.extends hpass.extends rfl fun _ hn => get?_stored_of_some hapart hn

theorem readInto_eq {target : String} (h : HasArchive d archive la)
    (hlocate : d.locate target true = .ok k) (hapart : la ≠ k) :
    readInto target archive d e = e := by
  obtain ⟨c, mode, hfind, hzip⟩ := h
  have helse : (d.locate target true).toOption ≠ some la := by
    rw [hlocate]
    exact fun heq => hapart (Option.some.inj heq).symm
  unfold readInto
  rw [hfind]
  exact if_pos ⟨hzip, helse⟩

/-! ## One entry -/

theorem extractEntry_eq {dest : String} {entries : List (Zip.Entry Content)}
    (hplain : PlainName e.name) (hfind : Zip.find? entries e.name = some e) :
    extractEntry archive entries dest e.name =
      if Path.endsInSlash e.name then Act.makeDirs (Path.join dest e.name)
      else (do
        Act.makeParents (Path.join dest e.name)
        let e' := readInto (Path.join dest e.name) archive (← Act.disk) e
        Act.change (·.write (Path.join dest e.name) e'.data)
        if !e'.intact then throw (.io .invalidChecksum)) := by
  unfold extractEntry
  rw [hfind]
  simp only [hplain.isEnclosed, isDirectoryName_eq hplain.backslash, Bool.not_true,
    Bool.false_eq_true, if_false]

theorem ensureDirs_entry {path : String} (h : d.Along path l (entryPath e.name) (entryTail e.name))
    (hpass : Passable d.tree l e.name) (hslash : Path.endsInSlash e.name = true) :
    d.ensureDirs path = ({ d with tree := stored d.tree l e }, .ok ()) := by
  have hdirs := hpass.dirs
  unfold stored
  rw [if_pos hslash]
  rw [entryDirs_of_slash hslash] at hdirs ⊢
  exact h.ensureDirs (entryPath_ne_nil e.name) hdirs

theorem write_entry {path : String} (h : d.Along path l (entryPath e.name) (entryTail e.name))
    (hpass : Passable d.tree l e.name) (hslash : Path.endsInSlash e.name = false) :
    ∃ parent, Path.parent? path = some parent ∧
      d.ensureDirs parent = ({ d with tree := makeWay d.tree l (entryDirs e.name) }, .ok ()) ∧
      ({ d with tree := makeWay d.tree l (entryDirs e.name) } : Disk).locate path true =
        .ok (l ++ entryPath e.name) ∧
      ({ d with tree := makeWay d.tree l (entryDirs e.name) } : Disk).write path e.data =
        .ok { d with tree := stored d.tree l e } := by
  have hfile := hpass.file hslash
  have hsame := Tree.get?_makeWay_other d.tree l (not_isPrefix_entryDirs hslash)
  have hmode : writtenMode (makeWay d.tree l (entryDirs e.name)) (l ++ entryPath e.name) =
      writtenMode d.tree (l ++ entryPath e.name) := by
    unfold writtenMode
    rw [hsame]
  rw [← hsame] at hfile
  unfold stored
  rw [if_neg (by simp [hslash]), ← hmode]
  unfold entryTail at h
  rw [if_neg (by simp [hslash])] at h
  obtain ⟨last, hpath⟩ := entryDirs_of_not_slash hslash
  rw [hpath] at h hfile ⊢
  rw [← List.append_assoc] at hfile ⊢
  obtain ⟨parent, hparent, hmade⟩ := h.ensureParents hpass.dirs
  have hlink : ∀ target,
      (makeWay d.tree l (entryDirs e.name)).get? (l ++ entryDirs e.name ++ [last]) ≠
      some (.link target) := by
    intro target
    rcases hfile with hnone | ⟨c, mode, hfile⟩
    · rw [hnone]
      simp
    · rw [hfile]
      simp
  have hlocate := (h.makeWay (entryDirs e.name)).locate (Disk.isDirs_makeWay h.dir hpass.dirs)
    (Or.inr (Or.inr ⟨rfl, hlink⟩)) true
  exact ⟨parent, hparent, hmade, hlocate, Disk.write_eq hlocate h.endsInSlash hfile e.data⟩

/-- **One entry.** Where its path leads along its names it is extracted if its data is intact. -/
theorem extractEntry_along {dest : String} {entries : List (Zip.Entry Content)}
    (h : w.disk.Along (Path.join dest e.name) l (entryPath e.name) (entryTail e.name))
    (hplain : PlainName e.name) (hpass : Passable w.disk.tree l e.name)
    (hfind : Zip.find? entries e.name = some e) (harchive : HasArchive w.disk archive la)
    (hapart : Path.endsInSlash e.name = false → la ≠ l ++ entryPath e.name) :
    extractEntry archive entries dest e.name w =
      (if Path.endsInSlash e.name = false ∧ e.intact = false then throw (.io .invalidChecksum)
        else pure () : Act Unit)
        { w with disk := { w.disk with tree := stored w.disk.tree l e } } := by
  rw [extractEntry_eq hplain hfind]
  cases hslash : Path.endsInSlash e.name with
  | true =>
    rw [if_pos rfl, if_neg (by simp)]
    exact Act.makeDirs_ok.2 (by rw [ensureDirs_entry h hpass hslash]; exact ⟨rfl, rfl⟩)
  | false =>
    obtain ⟨parent, hparent, hmade, hlocate, hwrite⟩ := write_entry h hpass hslash
    have hparents : Act.makeParents (Path.join dest e.name) w =
        .ok () { w with disk :=
          { w.disk with tree := makeWay w.disk.tree l (entryDirs e.name) } } := by
      unfold Act.makeParents
      rw [hparent]
      exact Act.makeDirs_ok.2 (by rw [hmade]; exact ⟨rfl, rfl⟩)
    have hchange : Act.change (·.write (Path.join dest e.name) e.data)
        { w with disk := { w.disk with tree := makeWay w.disk.tree l (entryDirs e.name) } } =
          .ok () { w with disk := { w.disk with tree := stored w.disk.tree l e } } :=
      Act.change_ok.2 ⟨_, hwrite, rfl⟩
    have hread : readInto (Path.join dest e.name) archive
        { w.disk with tree := makeWay w.disk.tree l (entryDirs e.name) } e = e :=
      readInto_eq (harchive.makeWay l (entryDirs e.name)) hlocate (hapart hslash)
    rw [if_neg (by simp), Act.bind_of_ok hparents, Act.bind_of_ok (Act.disk_ok.2 ⟨rfl, rfl⟩), hread,
      Act.bind_of_ok hchange]
    cases e.intact <;> rfl

/-! ## One entry in a scratch directory -/

/-- The tree after an entry was extracted below a location. -/
def extracted (t : Tree) (l : Location) (e : Zip.Entry Content) : Tree :=
  if Path.endsInSlash e.name then makeWay t l (entryDirs e.name)
  else (makeWay t l (entryDirs e.name)).put (l ++ entryPath e.name) (.file e.data newFileMode)

/-- Nothing is in the way of an entry. -/
structure HasRoom (t : Tree) (l : Location) (name : String) : Prop where
  dirs : Free t l (entryDirs name)
  file : Path.endsInSlash name = false → t.get? (l ++ entryPath name) = none

theorem HasRoom.passable {name : String} (h : HasRoom t l name) : Passable t l name :=
  ⟨h.dirs, fun hslash => Or.inl (h.file hslash)⟩

theorem HasRoom.stored_eq (h : HasRoom t l e.name) : stored t l e = extracted t l e := by
  unfold stored extracted writtenMode
  split
  · rfl
  · next hslash => rw [h.file (by simpa using hslash)]

theorem HasRoom.file_free {name : String} (h : HasRoom t l name)
    (hslash : Path.endsInSlash name = false) :
    (makeWay t l (entryDirs name)).get? (l ++ entryPath name) = none := by
  rw [Tree.get?_makeWay_other t l (not_isPrefix_entryDirs hslash), h.file hslash]

theorem along_entry (hs : Scratch d base l) (hplain : PlainName e.name)
    (hfits : Fits (Path.join ("/".intercalate base) e.name)) :
    d.Along (Path.join ("/".intercalate base) e.name) l (entryPath e.name) (entryTail e.name) := by
  rw [join_entry hs.isBase hplain] at hfits ⊢
  exact hs.along hplain.isPlain (entryTail_slashes e.name) hfits

theorem fits_of_extractEntry {dest : String} {entries : List (Zip.Entry Content)}
    (hplain : PlainName e.name) (hfind : Zip.find? entries e.name = some e) {u : Unit}
    (h : extractEntry archive entries dest e.name w = .ok u w') : Fits (Path.join dest e.name) := by
  have hne : Path.join dest e.name ≠ "" := by
    intro hempty
    obtain ⟨front, hsplit, -⟩ :=
      Path.split_join_relative dest (not_isAbsolute_of_plain hplain.isPlain)
    rw [hempty, split_eq e.name, show Text.split "" '/' = [""] from rfl] at hsplit
    obtain ⟨p, hp⟩ := List.exists_mem_of_ne_nil _ (entryPath_ne_nil e.name)
    have hmem : p ∈ [""] := hsplit ▸ List.mem_append_right front (List.mem_append_left _ hp)
    exact (hplain.plain p hp).1 (List.mem_singleton.1 hmem)
  rw [extractEntry_eq hplain hfind] at h
  split at h
  · exact Disk.fits_of_ensureDirs hne (Act.makeDirs_ok.1 h).1
  · obtain ⟨_, w₁, -, h⟩ := Act.bind_ok.1 h
    obtain ⟨_, w₂, -, h⟩ := Act.bind_ok.1 h
    obtain ⟨_, w₃, hchange, -⟩ := Act.bind_ok.1 h
    obtain ⟨d₂, hwrite, -⟩ := Act.change_ok.1 hchange
    obtain ⟨k, hloc, -⟩ := Disk.write_ok.1 hwrite
    exact (Disk.fits_of_locate hloc).1

theorem ne_below (hout : ¬ l <+: la) {r : Location} :
    la ≠ l ++ r := fun heq => hout (heq ▸ List.prefix_append l r)

/-- **One entry.** It is extracted if its path fits and its data is intact. -/
theorem extractEntry_ok {entries : List (Zip.Entry Content)} (hs : Scratch w.disk base l)
    (hplain : PlainName e.name) (hroom : HasRoom w.disk.tree l e.name)
    (hfind : Zip.find? entries e.name = some e) (harchive : HasArchive w.disk archive la)
    (hout : ¬ l <+: la) {u : Unit} :
    extractEntry archive entries ("/".intercalate base) e.name w = .ok u w' ↔
      Fits (Path.join ("/".intercalate base) e.name) ∧
        (Path.endsInSlash e.name = false → e.intact = true) ∧
        w' = { w with disk := { w.disk with tree := extracted w.disk.tree l e } } := by
  have hstep : ∀ hfits : Fits (Path.join ("/".intercalate base) e.name),
      extractEntry archive entries ("/".intercalate base) e.name w = .ok u w' ↔
        (Path.endsInSlash e.name = false → e.intact = true) ∧
          w' = { w with disk := { w.disk with tree := extracted w.disk.tree l e } } := by
    intro hfits
    rw [extractEntry_along (along_entry hs hplain hfits) hplain hroom.passable hfind harchive
      fun _ => ne_below hout, hroom.stored_eq, Act.check_ok, not_and,
      Bool.not_eq_false, eq_comm (a := w')]
  constructor
  · intro h
    have hfits := fits_of_extractEntry hplain hfind h
    exact ⟨hfits, (hstep hfits).1 h⟩
  · rintro ⟨hfits, h⟩
    exact (hstep hfits).2 h

/-! ## What an extracted entry adds -/

/-- The entry stands for a node: its file, or a directory on its way. -/
def Stands (e : Zip.Entry Content) (r : Location) (n : Node) : Prop :=
  Path.endsInSlash e.name = false ∧ entryPath e.name = r ∧ n = .file e.data newFileMode ∨
    n = .dir newDirMode ∧ r <+: entryDirs e.name

theorem Stands.isPrefix {e : Zip.Entry Content} {r : Location} {n : Node} (h : Stands e r n) :
    r <+: entryPath e.name := by
  rcases h with ⟨-, hpath, -⟩ | ⟨-, hpre⟩
  · exact hpath ▸ List.prefix_refl _
  · exact hpre.trans (entryDirs_isPrefix e.name)

/-- Extraction adds what the entry stands for, and changes nothing that is there. -/
theorem get?_extracted (hroom : HasRoom t l e.name) (k : Location) (n : Node) :
    (extracted t l e).get? k = some n ↔
      t.get? k = some n ∨ t.get? k = none ∧ ∃ r, r ≠ [] ∧ k = l ++ r ∧ Stands e r n := by
  have hway : (t.get? k = none ∧ n = .dir newDirMode ∧ ∃ q, q ≠ [] ∧
      q <+: entryDirs e.name ∧ k = l ++ q) ↔
      t.get? k = none ∧ ∃ r, r ≠ [] ∧ k = l ++ r ∧ n = .dir newDirMode ∧
          r <+: entryDirs e.name := by
    refine and_congr_right fun _ => ⟨?_, ?_⟩
    · rintro ⟨hn, q, hq, hpre, hk⟩
      exact ⟨q, hq, hk, hn, hpre⟩
    · rintro ⟨r, hr, hk, hn, hpre⟩
      exact ⟨hn, r, hr, hpre, hk⟩
  unfold extracted Stands
  cases hslash : Path.endsInSlash e.name with
  | true =>
    rw [if_pos rfl, Tree.get?_makeWay, hway]
    simp only [Bool.true_eq_false, false_and, false_or]
  | false =>
    have hne : l ++ entryPath e.name ≠ [] := by simp [entryPath_ne_nil]
    have hfree := hroom.file hslash
    rw [if_neg (by simp), Tree.get?_put hne]
    by_cases hk : k = l ++ entryPath e.name
    · subst hk
      rw [if_pos rfl, hfree]
      constructor
      · intro h
        exact Or.inr ⟨rfl, entryPath e.name, entryPath_ne_nil _, rfl,
          Or.inl ⟨rfl, rfl, (Option.some.inj h).symm⟩⟩
      · rintro (h | ⟨-, r, -, hr, ⟨-, -, rfl⟩ | ⟨-, hpre⟩⟩)
        · exact absurd h (by simp)
        · rfl
        · rw [List.append_cancel_left_eq] at hr
          exact absurd (hr ▸ hpre) (not_isPrefix_entryDirs hslash)
    · rw [if_neg hk, Tree.get?_makeWay, hway]
      refine or_congr_right (and_congr_right fun _ => ⟨?_, ?_⟩)
      · rintro ⟨r, hr, hkr, hdir⟩
        exact ⟨r, hr, hkr, Or.inr hdir⟩
      · rintro ⟨r, hr, hkr, ⟨-, rfl, -⟩ | hdir⟩
        · exact absurd hkr hk
        · exact ⟨r, hr, hkr, hdir⟩

/-! ## Several entries -/

/-- A directory that holds exactly what the entries stand for, on a disk that is otherwise as it
was. -/
structure Extracted (d₀ d : Disk) (base : List String) (l : Location)
    (es : List (Zip.Entry Content)) : Prop where
  scratch : Scratch d base l
  holds : ∀ r n, r ≠ [] → (d.tree.get? (l ++ r) = some n ↔ ∃ e ∈ es, Stands e r n)
  outside : ∀ k, ¬ l <+: k → d.tree.get? k = d₀.tree.get? k

variable {es : List (Zip.Entry Content)}

theorem Extracted.hasRoom (h : Extracted d₀ d base l es) (hnew : e.name ∉ Zip.names es)
    (hconflict : NoConflict (Zip.names (es ++ [e]))) : HasRoom d.tree l e.name := by
  have hmem : e.name ∈ Zip.names (es ++ [e]) := by simp
  have hold : ∀ f ∈ es, f.name ∈ Zip.names (es ++ [e]) ∧ f.name ≠ e.name := by
    intro f hf
    refine ⟨by simp [Zip.mem_names hf], ?_⟩
    intro heq
    exact hnew (heq ▸ Zip.mem_names hf)
  constructor
  · intro q hq hpre
    cases hget : d.tree.get? (l ++ q) with
    | none => exact Or.inl rfl
    | some n =>
      obtain ⟨f, hf, ⟨hfile, rfl, -⟩ | ⟨rfl, -⟩⟩ := (h.holds q n hq).1 hget
      · have hlead := hpre.trans (entryDirs_isPrefix e.name)
        exact absurd hlead (hconflict _ (hold f hf).1 hfile _ hmem (hold f hf).2.symm)
      · exact Or.inr ⟨_, rfl⟩
  · intro hslash
    rw [Option.eq_none_iff_forall_ne_some]
    intro n hget
    obtain ⟨f, hf, ⟨hfile, hpath, -⟩ | ⟨-, hpre⟩⟩ := (h.holds _ n (entryPath_ne_nil _)).1 hget
    · exact (hold f hf).2 (eq_of_entryPath hpath (by rw [hfile, hslash]))
    · exact hconflict _ hmem hslash _ (hold f hf).1 (hold f hf).2
        (hpre.trans (entryDirs_isPrefix f.name))

/-- **One more entry.** -/
theorem Extracted.concat (h : Extracted d₀ d base l es) (hroom : HasRoom d.tree l e.name) :
    Extracted d₀ { d with tree := extracted d.tree l e } base l (es ++ [e]) := by
  refine ⟨?_, fun r n hr => ?_, fun k hk => ?_⟩
  · unfold extracted
    have hway := h.scratch.makeWay hroom.dirs
    cases hslash : Path.endsInSlash e.name with
    | true => rwa [if_pos rfl]
    | false =>
      rw [if_neg (by simp)]
      have hnone := hroom.file_free hslash
      obtain ⟨last, hpath⟩ := entryDirs_of_not_slash hslash
      rw [hpath, ← List.append_assoc] at hnone
      have hput := hway.put (Disk.isDirs_makeWay h.scratch.dir hroom.dirs) hnone
        (n := .file e.data newFileMode) (by simp)
      rw [hpath, ← List.append_assoc]
      exact hput
  · show (extracted d.tree l e).get? (l ++ r) = some n ↔ _
    have hstep : (∃ r', r' ≠ [] ∧ l ++ r = l ++ r' ∧ Stands e r' n) ↔ Stands e r n := by
      constructor
      · rintro ⟨r', -, heq, hstands⟩
        rwa [List.append_cancel_left heq]
      · exact fun hstands => ⟨r, hr, rfl, hstands⟩
    rw [get?_extracted hroom, hstep]
    simp only [List.mem_append, List.mem_singleton, or_and_right, exists_or, exists_eq_left]
    rw [← h.holds r n hr]
    constructor
    · rintro (hget | ⟨-, hstands⟩)
      · exact Or.inl hget
      · exact Or.inr hstands
    · rintro (hget | hstands)
      · exact Or.inl hget
      -- Where something is already, it is the directory that the entry stands for.
      cases hget : d.tree.get? (l ++ r) with
      | none => exact Or.inr ⟨rfl, hstands⟩
      | some m =>
        rcases hstands with ⟨hfile, rfl, -⟩ | ⟨rfl, hpre⟩
        · rw [hroom.file hfile] at hget
          exact absurd hget (by simp)
        · rcases hroom.dirs r hr hpre with hnone | ⟨mode, hdir⟩
          · rw [hnone] at hget
            exact absurd hget (by simp)
          · obtain ⟨f, -, ⟨-, -, hm⟩ | ⟨hm, -⟩⟩ := (h.holds r _ hr).1 hdir
            · exact absurd hm (by simp)
            · exact Or.inl (by rw [← hget, hdir, hm])
  · show (extracted d.tree l e).get? k = _
    rw [← h.outside k hk]
    refine Option.ext fun n => ?_
    rw [get?_extracted hroom]
    refine ⟨?_, Or.inl⟩
    rintro (hget | ⟨-, r, -, rfl, -⟩)
    · exact hget
    · exact absurd (List.prefix_append l r) hk

/-- The disk after entries were extracted below a location. -/
def allExtracted (d : Disk) (l : Location) (es : List (Zip.Entry Content)) : Disk :=
  { d with tree := es.foldl (fun t e => extracted t l e) d.tree }

/-- Entries that can be extracted one after the other: plain ones with different names and without
conflicts. -/
structure Extractable (es : List (Zip.Entry Content)) : Prop where
  plain : ∀ e ∈ es, PlainName e.name
  nodup : (Zip.names es).Nodup
  noConflict : NoConflict (Zip.names es)

theorem Extractable.left {es fs : List (Zip.Entry Content)} (h : Extractable (es ++ fs)) :
    Extractable es := by
  refine ⟨fun e he => h.plain e (List.mem_append_left _ he), ?_, ?_⟩
  · have hnodup := h.nodup
    rw [Zip.names_append] at hnodup
    exact (List.nodup_append.1 hnodup).1
  · intro a ha hslash b hb
    have hconflict := h.noConflict
    rw [Zip.names_append] at hconflict
    exact hconflict a (List.mem_append_left _ ha) hslash b (List.mem_append_left _ hb)

theorem Extractable.perm {es fs : List (Zip.Entry Content)} (h : Extractable es)
    (hperm : es.Perm fs) : Extractable fs := by
  have hnames : (Zip.names es).Perm (Zip.names fs) := hperm.map _
  refine ⟨fun e he => h.plain e (hperm.mem_iff.2 he), hnames.nodup_iff.1 h.nodup,
    fun a ha hslash b hb => ?_⟩
  exact h.noConflict a (hnames.mem_iff.2 ha) hslash b (hnames.mem_iff.2 hb)

theorem Extractable.not_mem {es : List (Zip.Entry Content)} (h : Extractable (es ++ [e])) :
    e.name ∉ Zip.names es := by
  have hnodup := h.nodup
  rw [Zip.names_append, List.nodup_append] at hnodup
  exact fun hmem => hnodup.2.2 _ hmem _ (by simp) rfl

/-- **All entries.** After the entries were extracted the directory holds exactly what they stand
for. -/
theorem Extracted.append (h : Extracted d₀ d base l es) {more : List (Zip.Entry Content)}
    (hmore : Extractable (es ++ more)) :
    Extracted d₀ (allExtracted d l more) base l (es ++ more) := by
  induction more generalizing d es with
  | nil => rwa [List.append_nil]
  | cons e more ih =>
    rw [List.append_cons] at hmore ⊢
    have hone := hmore.left
    exact ih (h.concat (h.hasRoom hone.not_mem hone.noConflict)) hmore

/-- Extraction of several entries succeeds if their paths fit and their data is intact. -/
theorem extractEach_ok {entries more : List (Zip.Entry Content)} (h : Extracted d₀ w.disk base l es)
    (hmore : Extractable (es ++ more)) (hfind : ∀ e ∈ more, Zip.find? entries e.name = some e)
    (harchive : HasArchive w.disk archive la) (hout : ¬ l <+: la) :
    (Zip.names more).forM (extractEntry archive entries ("/".intercalate base)) w = .ok () w' ↔
      (∀ e ∈ more, Fits (Path.join ("/".intercalate base) e.name)) ∧
        (∀ e ∈ more, Path.endsInSlash e.name = false → e.intact = true) ∧
        w' = { w with disk := allExtracted w.disk l more } := by
  induction more generalizing w es with
  | nil =>
    rw [Zip.names, List.map_nil, Act.forM_nil_ok]
    simp only [List.not_mem_nil, false_implies, implies_true, true_and]
    exact eq_comm
  | cons e more ih =>
    rw [List.append_cons] at hmore
    have hone := hmore.left
    have hroom := h.hasRoom hone.not_mem hone.noConflict
    rw [Zip.names_cons, Act.forM_cons_ok]
    simp only [extractEntry_ok h.scratch (hone.plain e (by simp)) hroom
      (hfind e (by simp)) harchive hout]
    have harchive' : HasArchive { w.disk with tree := extracted w.disk.tree l e } archive la :=
      hroom.stored_eq ▸ harchive.stored hroom.passable fun _ => ne_below hout
    have hnext : ∀ w₁ : Workspace,
        w₁ = { w with disk := { w.disk with tree := extracted w.disk.tree l e } } →
        _ := fun w₁ hw₁ => ih (w := w₁) (by rw [hw₁]; exact h.concat hroom) hmore
          (fun f hf => hfind f (by simp [hf])) (by rw [hw₁]; exact harchive')
    constructor
    · rintro ⟨w₁, ⟨hfits, hintact, rfl⟩, hrest⟩
      obtain ⟨hfits', hintact', rfl⟩ := (hnext _ rfl).1 hrest
      exact ⟨List.forall_mem_cons.2 ⟨hfits, hfits'⟩,
        List.forall_mem_cons.2 ⟨hintact, hintact'⟩, rfl⟩
    · rintro ⟨hfits, hintact, rfl⟩
      rw [List.forall_mem_cons] at hfits hintact
      exact ⟨_, ⟨hfits.1, hintact.1, rfl⟩, (hnext _ rfl).2 ⟨hfits.2, hintact.2, rfl⟩⟩

end Rebadge.Archiver.Native
