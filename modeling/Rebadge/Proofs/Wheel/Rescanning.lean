import Rebadge.Proofs.Wheel.Contents
import Rebadge.Proofs.Wheel.Listing

/-!
# The patched archive can be scanned again

The new names are apart from all others: a name that was in the new directory before would have made
it a second directory for metadata (`nodup_patched`). So the patched archive has one such directory
again, METADATA and RECORD are in it once, and both can be read (`scanEntries_patched`).
-/

namespace Rebadge.Wheel

open Archiver.Native
open Rebadge.Path (IsPlain)

variable {path dir new : String} {entries es : List (Zip.Entry Content)} {c : Config} {s : Scan}
  {sources : List (String × Content)}

/-! ## Free names -/

theorem entryPath_treeEntry (hnew : IsPlain new) {r : Location} (hr : ∀ p ∈ r, IsPlain p)
    (n : Node) : entryPath (treeEntry new (r, n)).name = new :: r := by
  refine entryPath_intercalate (List.forall_mem_cons.2 ⟨hnew, hr⟩) (List.cons_ne_nil _ _) ?_
  cases n with
  | file content m => exact Or.inl rfl
  | dir m => exact Or.inr rfl
  | link target => exact Or.inr rfl

theorem nodup_movedEntries (hwithin : Within dir es) (hes : Extractable es) (hnew : IsPlain new) :
    (Zip.names (movedEntries new es)).Nodup := by
  have hplain : ∀ p ∈ treeNodes es, ∀ q ∈ p.1, IsPlain q := by
    rintro ⟨r, n⟩ hp q hq
    obtain ⟨e, he, hstands⟩ := (mem_treeNodes hwithin).1 hp
    exact (isFileName_of_stands hes he hstands q hq).plain
  refine nodup_names_map
    (fun p hp => entryPath_treeEntry hnew (hplain p ((Sorted.mem_sort _).1 hp)) p.2) ?_
  exact ((Sorted.sort_perm _ _).map Prod.fst).nodup_iff.2 (nodup_treeNodes hwithin hes)

variable (c sources) in
/-- **The names** of the patched archive are apart. -/
theorem nodup_patched (hscan : scanEntries path entries = .ok s)
    (hnodup : (Zip.names entries).Nodup) (hplain : ∀ n ∈ s.entries, PlainName n)
    (hconflict : NoConflict s.entries) (hfork : '/' ∉ c.forkDistName.toList) :
    (Zip.names (patchedEntries c s sources entries)).Nodup := by
  obtain ⟨hwithin, hes⟩ := within_filled c sources hscan hnodup hplain hconflict
  have hdir := isDirName_renamed hfork (isDirName_of_scan hscan)
  unfold patchedEntries
  rw [Zip.names_append, List.nodup_append]
  refine ⟨?_, nodup_movedEntries hwithin hes hdir.isPlain, ?_⟩
  · rw [names_filter (fun n => !inside s.dir n), names_filledEntries]
    exact hnodup.filter _
  · rintro n hkept n' hmoved rfl
    obtain ⟨e, he, rfl⟩ := Zip.exists_of_mem_names hmoved
    obtain ⟨hmem, hout⟩ := mem_names_kept hkept
    have hinside := inside_of_mem_movedEntries hwithin he
    rw [eq_of_inside hscan hdir hmem hinside] at hinside
    rw [hinside] at hout
    exact absurd hout (by simp)

/-! ## Files that are counted -/

theorem suffix_inDir_iff {suffix file rest d : List Char} (hsuffix : suffix <:+ d) (hd : '/' ∉ d)
    (hfile : '/' ∉ file) : suffix ++ '/' :: file <:+ d ++ '/' :: rest ↔ rest = file ∨
    suffix ++ '/' :: file <:+ rest := by
  have hnot : '/' ∉ suffix := fun h => hd (hsuffix.subset h)
  constructor
  · rintro ⟨front, h⟩
    rw [← List.append_assoc] at h
    rcases List.append_eq_append_iff.1 h with ⟨x, rfl, hx⟩ | ⟨x, hfront, hx⟩
    · cases x with
      | nil => exact Or.inl (List.cons.inj hx).2.symm
      | cons ch x => exact absurd (by simp [← (List.cons.inj hx).1]) hd
    · cases x with
      | nil => exact Or.inl (List.cons.inj hx).2
      | cons ch x =>
        obtain ⟨rfl, rfl⟩ := List.cons.inj hx
        refine Or.inr ?_
        rcases List.append_eq_append_iff.1 hfront with ⟨y, rfl, rfl⟩ | ⟨y, rfl, hy⟩
        · exact absurd (by simp) hnot
        · cases y with
          | nil => exact absurd (by rw [← List.nil_append suffix, ← hy]; simp) hnot
          | cons ch y => exact ⟨y, by rw [(List.cons.inj hy).2]; simp⟩
  · rintro (rfl | h)
    · obtain ⟨front, rfl⟩ := hsuffix
      exact ⟨front, by rw [List.append_assoc]⟩
    · exact h.trans (List.suffix_append_of_suffix (List.suffix_cons '/' rest))

theorem hasSuffix_inDir_iff (hdir : IsDirName dir) {file : String} (hfile : '/' ∉ file.toList)
    (rest : String) :
    Text.hasSuffix (inDir dir rest) (dirSuffix ++ "/" ++ file) = true ↔
      rest = file ∨ Text.hasSuffix rest (dirSuffix ++ "/" ++ file) = true := by
  obtain ⟨front, hfront⟩ := hdir.suffix
  have hlist : (dirSuffix ++ "/" ++ file).toList = dirSuffix.toList ++ '/' :: file.toList := by simp
  have hin : (inDir dir rest).toList = dir.toList ++ '/' :: rest.toList := by simp [inDir]
  unfold Text.hasSuffix
  rw [List.isSuffixOf_iff_suffix, List.isSuffixOf_iff_suffix, hlist, hin,
    suffix_inDir_iff ⟨front, hfront.symm⟩ hdir.slash hfile, String.toList_inj]

theorem not_endsInSlash_of_hasSuffix {n file : String} (hfile : '/' ∉ file.toList) (hne : file ≠ "")
    (h : Text.hasSuffix n (dirSuffix ++ "/" ++ file) = true) : Path.endsInSlash n = false := by
  obtain ⟨front, hfront⟩ := Text.hasSuffix_iff.1 h
  have hnil : file.toList ≠ [] := by simpa using hne
  unfold Path.endsInSlash
  rw [hfront, String.toList_append, ← List.append_assoc, List.getLast?_append_of_ne_nil _ hnil,
    beq_eq_false_iff_ne]
  intro hlast
  exact hfile (List.mem_of_getLast? hlast)

theorem fileCount_eq {file : String} (hfile : '/' ∉ file.toList) (hne : file ≠ "")
    (es : List (Zip.Entry Content)) :
    fileCount (Zip.names es) file = fileCount (Zip.names (es.filter (·.isFile))) file := by
  have hfiles : Zip.names (es.filter (·.isFile)) = (Zip.names es).filter fun n =>
      !Path.endsInSlash n :=
    names_filter (fun n => !Path.endsInSlash n) es
  unfold fileCount
  rw [hfiles, List.countP_filter]
  refine List.countP_congr fun n _ => ?_
  rw [Bool.and_eq_true, iff_self_and]
  intro h
  rw [not_endsInSlash_of_hasSuffix hfile hne h]
  rfl

/-- **The count** of METADATA and RECORD is the same after the patch. -/
theorem fileCount_patched (hscan : scanEntries path entries = .ok s)
    (hnodup : (Zip.names entries).Nodup) (hplain : ∀ n ∈ s.entries, PlainName n)
    (hconflict : NoConflict s.entries) (hfork : '/' ∉ c.forkDistName.toList) {file : String}
    (hfile : '/' ∉ file.toList) (hne : file ≠ "") :
    fileCount (Zip.names (patchedEntries c s sources entries)) file =
      fileCount (Zip.names entries) file := by
  have hdir := isDirName_of_scan hscan
  have hfinal := nodup_patched c sources hscan hnodup hplain hconflict hfork
  have hfiles := files_patched hscan hnodup hplain hconflict hfork hfinal
  rw [fileCount_eq hfile hne, fileCount_eq hfile hne entries]
  unfold fileCount
  rw [hfiles.countP_eq, List.countP_map]
  refine List.countP_congr fun n _ => ?_
  rw [Function.comp_apply]
  cases hinside : inside s.dir n with
  | false => rw [movedName_of_not_inside hinside]
  | true =>
    obtain ⟨rest, rfl⟩ := exists_inDir hinside
    rw [movedName_append, hasSuffix_inDir_iff (isDirName_renamed hfork hdir) hfile,
      hasSuffix_inDir_iff hdir hfile]

/-! ## Replaced files -/

/-- A file that was replaced can be read under its moved name. -/
theorem mem_replaced
    (hwithin : Within s.dir
      ((filledEntries c s sources entries).filter fun e => inside s.dir e.name))
    {e : Zip.Entry Content} (he : e ∈ entries) (hfile : e.isFile = true) {data : Content}
    (hlatest : latest (replacements c s sources) e.name = some data) :
    ∃ f ∈ patchedEntries c s sources entries, f.name = movedName s.dir (c.renamed s.dir) e.name ∧
      f.data = data ∧ f.intact = true := by
  obtain ⟨f, hf, hname, hdata, hintact⟩ := mem_patched hwithin he hfile
  rw [hlatest, Option.getD_some] at hdata
  exact ⟨f, hf, hname, hdata, hintact (by simp [hlatest])⟩

theorem find?_replaced_inDir
    (hwithin : Within s.dir
      ((filledEntries c s sources entries).filter fun e => inside s.dir e.name)) (hnodup :
      (Zip.names (patchedEntries c s sources entries)).Nodup) {file : String} {data : Content}
    (hmem : inDir s.dir file ∈ Zip.names entries)
    (hslash : Path.endsInSlash (inDir s.dir file) = false)
    (hlatest : latest (replacements c s sources) (inDir s.dir file) = some data) :
    ∃ f, Zip.find? (patchedEntries c s sources entries) (inDir (c.renamed s.dir) file) = some f ∧
      f.data = data ∧ f.intact = true := by
  obtain ⟨e, he, hname⟩ := Zip.exists_of_mem_names hmem
  rw [← hname] at hlatest hslash
  obtain ⟨f, hf, hfname, hdata, hintact⟩ :=
    mem_replaced hwithin he (by rw [isFile_eq, hslash]; rfl) hlatest
  rw [hname, movedName_append] at hfname
  exact ⟨f, (Zip.find?_eq_some_iff hnodup).2 ⟨hf, hfname⟩, hdata, hintact⟩

/-! ## The scan -/

theorem distInfoDir_patched (hscan : scanEntries path entries = .ok s)
    (hnodup : (Zip.names entries).Nodup) (hplain : ∀ n ∈ s.entries, PlainName n)
    (hconflict : NoConflict s.entries) (hfork : '/' ∉ c.forkDistName.toList)
    (hmem : inDir (c.renamed s.dir) "METADATA" ∈ Zip.names (patchedEntries c s sources entries)) :
    distInfoDir (Zip.names (patchedEntries c s sources entries)) = .ok (c.renamed s.dir) := by
  obtain ⟨hwithin, -⟩ := within_filled c sources hscan hnodup hplain hconflict
  have hnew := isDirName_renamed hfork (isDirName_of_scan hscan)
  refine distInfoDir_ok.2 ⟨⟨_, hmem, distInfoOf?_of_inside hnew (inside_inDir _ _)⟩,
    fun n hn d hd => ?_⟩
  obtain ⟨e, he, rfl⟩ := Zip.exists_of_mem_names hn
  rcases List.mem_append.1 he with hkept | hmoved
  · obtain ⟨hold, hout⟩ := mem_names_kept (Zip.mem_names hkept)
    obtain rfl := (distInfoDir_ok.1 (scanEntries_ok.1 hscan).1).2 _ hold d hd
    have hinside := (Text.hasPrefix_slash (slash_of_distInfoOf? hd)).2 (distInfoOf?_eq_some.1 hd).2
    unfold inside at hout
    rw [hinside] at hout
    exact absurd hout (by simp)
  · rw [distInfoOf?_of_inside hnew (inside_of_mem_movedEntries hwithin hmoved),
      Option.some.injEq] at hd
    exact hd.symm

/-- **The scan of the patched archive** succeeds, with the new METADATA and RECORD. -/
theorem scanEntries_patched (hscan : scanEntries path entries = .ok s)
    (hnodup : (Zip.names entries).Nodup) (hplain : ∀ n ∈ s.entries, PlainName n)
    (hconflict : NoConflict s.entries) (hfork : '/' ∉ c.forkDistName.toList)
    (hout : SourcesOutside s sources) :
    ∃ s', scanEntries path (patchedEntries c s sources entries) = .ok s' ∧
      s'.record = newRecord c s sources := by
  obtain ⟨-, hcountMetadata, hcountRecord, hmetadata, hrecord, -⟩ := scanEntries_ok.1 hscan
  obtain ⟨hwithin, -⟩ := within_filled c sources hscan hnodup hplain hconflict
  have hfinal := nodup_patched c sources hscan hnodup hplain hconflict hfork
  obtain ⟨f, hf, hfdata, hfintact⟩ :=
    find?_replaced_inDir hwithin hfinal (find?_of_entryText hmetadata)
      (metadata_isFile s.dir) hout.latest_metadata
  obtain ⟨g, hg, hgdata, hgintact⟩ :=
    find?_replaced_inDir hwithin hfinal (find?_of_entryText hrecord)
      (record_isFile s.dir) hout.latest_record
  have hmem : inDir (c.renamed s.dir) "METADATA" ∈
      Zip.names (patchedEntries c s sources entries) := by
    obtain ⟨hfmem, hfname⟩ := (Zip.find?_eq_some_iff hfinal).1 hf
    rw [← hfname]
    exact Zip.mem_names hfmem
  have htext : ∀ text : String, (Content.ofText text).text? = .ok text := by
    intro text
    rw [Content.text?, Content.ofText, Content.image, ofUtf8?_utf8]
  refine ⟨⟨c.renamed s.dir, newMetadata c s, newRecord c s sources,
    Sorted.sort Text.le ((Zip.names (patchedEntries c s sources entries)).filter
      (Text.hasPrefix · (c.renamed s.dir ++ "/")))⟩, scanEntries_ok.2
    ⟨distInfoDir_patched hscan hnodup hplain hconflict hfork hmem, ?_, ?_, ?_, ?_, rfl⟩, rfl⟩
  · rw [fileCount_patched hscan hnodup hplain hconflict hfork (by decide) (by decide),
      hcountMetadata]
  · rw [fileCount_patched hscan hnodup hplain hconflict hfork (by decide) (by decide), hcountRecord]
  · exact entryText_ok.2 ⟨f, hf, hfintact, by rw [hfdata, htext]⟩
  · exact entryText_ok.2 ⟨g, hg, hgintact, by rw [hgdata, htext]⟩

end Rebadge.Wheel
