import Rebadge.Proofs.Archiver.Twins
import Rebadge.Proofs.Name
import Rebadge.Proofs.Wheel.Moving

/-!
# Moving the directory for metadata on twin disks

What happens with the scratch directory while the directory for metadata is moved ends alike on two
disks that are the same in the scratch directory and in the archive (`alike_moveBy`).
-/

namespace Rebadge.Wheel

open Rebadge.Path (IsPlain IsBase isIdle)
open Disk (Inner Kept Twins)
open Act (Alike OnDisks)
open Archiver (native)
open Archiver.Native (Holding)

variable {a a' : Workspace} {bases : List (List String)} {l la : Location}
  {own : List Location} {o o' d d' : Disk} {c : Config} {path scratch : String} {s : Scan}

theorem exists_name_of_mem {entries : List (Zip.Entry Content)}
    (hscan : scanEntries path entries = .ok s) {name : String} (hname : name ∈ s.entries) :
    ∃ p ∈ Text.split name '/', isIdle p = false := by
  obtain ⟨hdir, -, -, -, -, hentries⟩ := scanEntries_ok.1 hscan
  obtain ⟨n, -, hn⟩ := (distInfoDir_ok.1 hdir).1
  have hplain := (isDirName_of_distInfoOf? hn).isPlain
  rw [hentries, Sorted.mem_sort, List.mem_filter] at hname
  have hprefix := hname.2
  unfold Text.hasPrefix at hprefix
  rw [List.isPrefixOf_iff_prefix] at hprefix
  obtain ⟨rest, hrest⟩ := hprefix
  refine ⟨s.dir, ?_, ?_⟩
  · have hsplit : name = "/".intercalate ([s.dir] ++ Text.split (.ofList rest) '/') := by
      rw [Text.intercalate_append (by simp) (Text.split_ne_nil _ _), String.intercalate_singleton,
        Text.intercalate_split, ← String.toList_inj, String.toList_append,
        String.toList_ofList, hrest]
    rw [hsplit, Text.split_intercalate (by simp)]
    · simp
    · intro p hp
      rcases List.mem_append.1 hp with hp | hp
      · rw [List.mem_singleton.1 hp]
        exact hplain.slash
      · exact Text.not_mem_of_mem_split hp
  · unfold Path.isIdle
    rw [Bool.or_eq_false_iff]
    exact ⟨by simpa using hplain.ne_empty, by simpa using hplain.ne_current⟩

theorem inner_parent (hbases : ∀ base ∈ bases, IsBase base) (hscratch : Inner bases scratch)
    (c : Config) : Inner bases ((Text.split c.distName '/').dropLast.foldl Path.join scratch) := by
  refine hscratch.foldl_join hbases fun p hp => ?_
  rcases pieces_distName c p (List.dropLast_subset _ hp) with rfl | hplain
  · exact ⟨by simp, by decide⟩
  · exact ⟨hplain.1.slash, hplain.1.ne_parent⟩

theorem findDistInfo_congr (h : Twins bases l own o o' d d') (hscratch : Inner bases scratch) :
    findDistInfo d scratch c.distName path = findDistInfo d' scratch c.distName path := by
  have hpaths : distInfoPaths d scratch c.distName = distInfoPaths d' scratch c.distName := by
    unfold distInfoPaths
    simp only [h.list (inner_parent h.left.isBase hscratch c)]
  unfold findDistInfo
  rw [hpaths]

theorem exists_of_findDistInfo_kept (h : Kept bases l own o d) (hscratch : Inner bases scratch)
    {p : String} (hok : findDistInfo d scratch c.distName path = .ok p) :
    ∃ parent y, Inner bases parent ∧ IsPlain y ∧
      isDistInfoOf ((Text.split c.distName '/').getLastD "") y = true ∧
      p = Path.join parent y := by
  obtain ⟨parent, names, y, rfl, hlist, hy, hname, rfl⟩ := exists_of_findDistInfo hok
  have hparent := inner_parent h.isBase hscratch c
  obtain ⟨k, mode, hfind, rfl⟩ := Disk.list_ok.1 hlist
  obtain ⟨r, rfl⟩ := ((h.twins.find hparent true).2 k _ hfind).1.below
  have hget : d.tree.get? (l ++ r ++ [y]) ≠ none := Tree.mem_names_iff.1 hy
  rw [List.append_assoc] at hget
  exact ⟨_, y, hparent, h.clear.plain (r ++ [y]) hget y (by simp), hname, rfl⟩

theorem inner_of_findDistInfo (h : Kept bases l own o d) (hscratch : Inner bases scratch)
    {p : String} (hok : findDistInfo d scratch c.distName path = .ok p) : Inner bases p := by
  obtain ⟨parent, y, hparent, hplain, -, rfl⟩ := exists_of_findDistInfo_kept h hscratch hok
  exact hparent.join_name h.isBase hplain.slash hplain.ne_parent

theorem renamed_fileName (hfork : '/' ∉ c.forkDistName.toList) (p : String) :
    '/' ∉ (c.renamed ((Path.fileName? p).getD "")).toList ∧
    c.renamed ((Path.fileName? p).getD "") ≠ ".." := by
  have hname : '/' ∉ ((Path.fileName? p).getD "").toList ∧ (Path.fileName? p).getD "" ≠ ".." := by
    cases hname : Path.fileName? p with
    | some name =>
      have hplain := Path.isPlain_of_fileName? hname
      exact ⟨hplain.slash, hplain.ne_parent⟩
    | none => exact ⟨by simp, by decide⟩
  exact ⟨slash_renamed hfork hname.1,
    fun heq => hname.2 (eq_of_renamed_eq (by decide) (by decide) heq)⟩

/-- **The move** ends alike. -/
theorem alike_moveBy (hbases : ∀ base ∈ bases, IsBase base) (hscratch : Inner bases scratch)
    (h : Holding (Twins bases l own o o') path la) (hfork : '/' ∉ c.forkDistName.toList)
    (hentries : ∀ name ∈ s.entries, ∃ p ∈ Text.split name '/', isIdle p = false) :
    Alike (OnDisks a a' (Twins bases l own o o')) (moveBy c native path s scratch) := by
  unfold moveBy
  refine (Archiver.Native.alike_extractEntries hbases hscratch (fun d d' hd => h.find hd true)
    hentries).bind fun _ => ?_
  refine (h.deleteEntries _).bind fun _ => ?_
  refine Act.alike_disk_bind (fun d d' hd => ?_) fun d d' hd => ?_
  · rw [findDistInfo_congr hd hscratch]
  · refine (Act.alike_ofExcept _).bind_of fun extracted _ _ _ _ hok => ?_
    have hextracted := inner_of_findDistInfo hd.left hscratch (Act.ofExcept_ok.1 hok).1
    obtain ⟨hslash, hne⟩ := renamed_fileName (c := c) hfork extracted
    have hnew := hscratch.join_name hbases hslash hne
    refine (Act.alike_change fun _ _ hd => hd.rename hextracted hnew).bind fun _ => ?_
    exact (Archiver.Native.alike_addTree hnew h).bind fun _ => Act.alike_pure _

end Rebadge.Wheel
