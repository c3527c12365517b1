import Rebadge.Proofs.Record.Paths
import Rebadge.Proofs.Record.Swapping
import Rebadge.Proofs.Wheel.Contents

/-!
# What the record lists after a patch

The record is renamed as one text, while the archive is moved by its directory for metadata. A
record that lists the files of its archive goes on doing so exactly if both rename every file alike
(`record_lists_iff`): renamings that differ cannot make up for each other.
-/

namespace Rebadge.Wheel

open Archiver Archiver.Native
open Record (PlainText Follows renameAll renamed)

variable {w w' : Workspace} {c : Config} {path : String} {entries : List (Zip.Entry Content)}
  {s : Scan} {sources : List (String × Content)}

/-- The record lists each file of the archive once, and nothing else. -/
def Lists (record : Record) (entries : List (Zip.Entry Content)) : Prop :=
  record.paths.Perm (Zip.names (entries.filter (·.isFile)))

instance (record : Record) (entries : List (Zip.Entry Content)) :
    Decidable (Lists record entries) := by
  unfold Lists
  infer_instance

/-! ## The files of the archive -/

/-- **The files after a patch** are the files before it under their moved names. -/
theorem files_patched (hscan : scanEntries path entries = .ok s)
    (hnodup : (Zip.names entries).Nodup) (hplain : ∀ n ∈ s.entries, PlainName n)
    (hconflict : NoConflict s.entries) (hfork : '/' ∉ c.forkDistName.toList)
    (hfinal : (Zip.names (patchedEntries c s sources entries)).Nodup) :
    (Zip.names ((patchedEntries c s sources entries).filter (·.isFile))).Perm
      ((Zip.names (entries.filter (·.isFile))).map (movedName s.dir (c.renamed s.dir))) := by
  obtain ⟨hwithin, hextractable⟩ := within_filled c sources hscan hnodup hplain hconflict
  have hnew := (isDirName_renamed hfork (isDirName_of_scan hscan)).slash
  have hnames := names_filledEntries c entries s sources
  have hfiles : ∀ es : List (Zip.Entry Content), Zip.names (es.filter (·.isFile)) =
      (Zip.names es).filter fun n => !Path.endsInSlash n := fun es =>
    names_filter (fun n => !Path.endsInSlash n) es
  unfold patchedEntries at hfinal ⊢
  generalize filledEntries c s sources entries = filled at hwithin hextractable hnames hfinal ⊢
  generalize c.renamed s.dir = new at hnew hfinal ⊢
  rw [List.filter_append, Zip.names_append, hfiles (filled.filter _),
    names_filter (fun n => !inside s.dir n), hfiles entries, ← hnames, List.filter_comm]
  refine List.Perm.trans ?_ ((List.filter_append_perm (fun n => !inside s.dir n)
    ((Zip.names filled).filter fun n => !Path.endsInSlash n)).map (movedName s.dir new))
  rw [List.map_append]
  refine List.Perm.append ?_ ?_
  · -- Names outside the directory are not moved.
    have hsame : ∀ n ∈ ((Zip.names filled).filter fun n => !Path.endsInSlash n).filter fun n =>
        !inside s.dir n, movedName s.dir new n = n := fun n hn =>
      movedName_of_not_inside (by simpa using (List.mem_filter.1 hn).2)
    rw [List.map_congr_left hsame, List.map_id']
  · rw [Zip.names_append, List.nodup_append] at hfinal
    have hnodup' : (Zip.names filled).Nodup := by rwa [hnames]
    refine (List.perm_ext_iff_of_nodup ?_ ?_).2 fun n => ?_
    · exact hfinal.2.1.sublist (List.filter_sublist.map _)
    · refine List.Nodup.map_on (fun a ha b hb => movedName_inj ?_ ?_) ((hnodup'.filter _).filter _)
      · simpa using (List.mem_filter.1 ha).2
      · simpa using (List.mem_filter.1 hb).2
    · rw [mem_files_moved hwithin hextractable hnew, List.mem_map]
      constructor
      · rintro ⟨e, he, hfile, hn⟩
        obtain ⟨hmem, hinside⟩ := List.mem_filter.1 he
        refine ⟨e.name, List.mem_filter.2 ⟨List.mem_filter.2 ⟨Zip.mem_names hmem, hfile⟩, ?_⟩, hn⟩
        rw [hinside]
        rfl
      · rintro ⟨m, hm, hn⟩
        rw [List.mem_filter, List.mem_filter, Bool.not_not] at hm
        obtain ⟨e, he, rfl⟩ := Zip.exists_of_mem_names hm.1.1
        exact ⟨e, List.mem_filter.2 ⟨he, hm.2⟩, hm.1.2, hn⟩

/-! ## The renamings compared -/

theorem follows_movedName (hc : c.NamesValid) {dir : String} (name : String) :
    Follows c (movedName dir (c.renamed dir) name).toList (renamed c name.toList) := by
  cases hinside : inside dir name with
  | false =>
    rw [movedName_of_not_inside hinside]
    exact Record.follows_renamed hc _
  | true =>
    obtain ⟨rest, rfl⟩ := exists_inDir hinside
    have hlist : ∀ x : String, (inDir x rest).toList = x.toList ++ ('/' :: rest.toList) := by
      intro x
      simp [inDir]
    rw [movedName_append, hlist, hlist, Record.renamed_append hc (by decide)]
    refine (Record.follows_of_swaps hc (Record.swaps_renamed_dir hc dir)).append ?_
    exact (Record.follows_of_swaps hc (Chars.Swaps.refl ['/'])).append
      (Record.follows_renamed hc rest.toList)

/-- Two renamings of a list give the same names if they agree on each. -/
theorem renamings_perm_iff (hc : c.NamesValid) {dir : String} (names : List String) :
    (names.map (renameAll c)).Perm (names.map (movedName dir (c.renamed dir))) ↔
      ∀ n ∈ names, renameAll c n = movedName dir (c.renamed dir) n := by
  constructor
  · intro hperm n hn
    have hchars := hperm.symm.map String.toList
    rw [List.map_map, List.map_map] at hchars
    have heq := Record.eq_of_follows_of_perm (c := c) (fun n _ => ?_) hchars n hn
    · exact String.toList_inj.1 heq.symm
    · rw [Function.comp_apply, Function.comp_apply, Record.toList_renameAll]
      exact follows_movedName hc n
  · intro h
    rw [List.map_congr_left h]

/-! ## The record and the archive -/

theorem slash_not_mem_forkDistName (hc : c.NamesValid) : '/' ∉ c.forkDistName.toList := fun hmem =>
  absurd ((Record.isWord_forkDistName hc).word _ hmem) (by decide)

/-- **A patch that succeeds** leaves the patched entries, and their RECORD is the new one. -/
theorem scan_of_patch (hwf : w.disk.tree.WellFormed) (hopen : openZip path w = .ok entries w)
    (hscan : scanEntries path entries = .ok s) (hfork : '/' ∉ c.forkDistName.toList)
    (hrecord : s.recordPath ∉ c.trackedFiles) (hplain : ∀ n ∈ s.entries, PlainName n)
    (hconflict : NoConflict s.entries) (hok : patch c native path w = .ok () w') :
    ∃ sources s', openZip path w' = .ok (patchedEntries c s sources entries) w' ∧
      (Zip.names (patchedEntries c s sources entries)).Nodup ∧
      scanEntries path (patchedEntries c s sources entries) = .ok s' ∧
          s'.record = newRecord c s sources := by
  obtain ⟨sources, d₀, d, la, hread, -, hstored, hverify⟩ :=
    patched_of_ok hwf hopen hscan hfork hplain hconflict hok
  have hopen' : openZip path { w with disk := d } = .ok (patchedEntries c s sources entries)
      { w with disk := d } :=
    Stored.openZip (w := { w with disk := d }) hstored
  obtain ⟨s', hscan', rfl, -⟩ := sound_of_verify hopen' hverify
  have hlatest : latest (replacements c s sources) s.recordPath =
      some (.ofText (newRecord c s sources)) := by
    rw [latest_replacements, latest_eq_none.2 (by rwa [hread.names]), Option.none_or, if_pos rfl]
  obtain ⟨hwithin, -⟩ := within_filled c sources hscan (nodup_of_openZip hopen) hplain hconflict
  have hfile := file_inDir hwithin hstored.nodup
    (find?_of_entryText (scanEntries_ok.1 hscan).2.2.2.2.1) (record_isFile s.dir) hlatest
  exact ⟨sources, s', hopen', hstored.nodup, hscan', (scan_patched hscan hfork hfile hscan').2⟩

/-- **The new RECORD** lists the patched entries exactly if the renaming of texts and the move agree
on each file. -/
theorem lists_patched_iff (hc : c.NamesValid) (hscan : scanEntries path entries = .ok s)
    (hnodup : (Zip.names entries).Nodup) (hplain : ∀ n ∈ s.entries, PlainName n)
    (hconflict : NoConflict s.entries) (htext : PlainText s.record.toList)
    (hlists : Lists (Record.parse s.record) entries)
    (hfinal : (Zip.names (patchedEntries c s sources entries)).Nodup) :
    Lists (Record.parse (newRecord c s sources)) (patchedEntries c s sources entries) ↔
      ∀ n ∈ Zip.names (entries.filter (·.isFile)),
        renameAll c n = movedName s.dir (c.renamed s.dir) n := by
  have hfiles := files_patched hscan hnodup hplain hconflict (slash_not_mem_forkDistName hc) hfinal
  have hpaths : (Record.parse (newRecord c s sources)).paths.Perm
      ((Zip.names (entries.filter (·.isFile))).map (renameAll c)) := by
    unfold newRecord
    rw [Record.paths_forFork hc htext]
    exact hlists.map _
  rw [← renamings_perm_iff hc]
  constructor
  · intro h
    exact hpaths.symm.trans (h.trans hfiles)
  · intro h
    exact hpaths.trans (h.trans hfiles.symm)

/-- **What the record lists.** If the record of a wheel lists its files, and the wheel is patched,
then the record goes on listing the files exactly if its renaming and the move of the directory give
each file the same name. -/
theorem record_lists_iff (hwf : w.disk.tree.WellFormed) (hopen : openZip path w = .ok entries w)
    (hscan : scanEntries path entries = .ok s) (hc : c.NamesValid)
    (hrecord : s.recordPath ∉ c.trackedFiles) (hplain : ∀ n ∈ s.entries, PlainName n)
    (hconflict : NoConflict s.entries) (htext : PlainText s.record.toList)
    (hlists : Lists (Record.parse s.record) entries) (hok : patch c native path w = .ok () w') :
    ∃ final s', openZip path w' = .ok final w' ∧ scanEntries path final = .ok s' ∧
      (Lists (Record.parse s'.record) final ↔
        ∀ n ∈ Zip.names (entries.filter (·.isFile)),
          renameAll c n = movedName s.dir (c.renamed s.dir) n) := by
  obtain ⟨sources, s', hopen', hfinal, hscan', hs'⟩ :=
    scan_of_patch hwf hopen hscan (slash_not_mem_forkDistName hc) hrecord hplain hconflict hok
  refine ⟨_, s', hopen', hscan', ?_⟩
  rw [hs']
  exact lists_patched_iff hc hscan (nodup_of_openZip hopen) hplain hconflict htext hlists hfinal

/-! ## The small wheel -/

theorem small_namesValid : smallConfig.NamesValid := ⟨by decide, by decide⟩

theorem small_plainText : PlainText smallScan.record.toList where
  quote := by decide +kernel
  carriageReturn := by decide +kernel
  byteOrderMark := by decide +kernel

theorem small_lists : Lists (Record.parse smallScan.record) smallEntries := by decide +kernel

theorem small_lists_iff : ∃ w' final s', patch smallConfig native "w" smallWorkspace = .ok () w' ∧
    openZip "w" w' = .ok final w' ∧ scanEntries "w" final = .ok s' ∧
    (Lists (Record.parse s'.record) final ↔ ∀ n ∈ Zip.names (smallEntries.filter (·.isFile)),
      renameAll smallConfig n = movedName smallScan.dir (smallConfig.renamed smallScan.dir) n) := by
  obtain ⟨w', hok⟩ := small_succeeds
  obtain ⟨final, s', hopen, hscan, hlists⟩ :=
    record_lists_iff small_wellFormed small_open small_scan small_namesValid
      (by decide) (by decide) (by decide) small_plainText small_lists hok
  exact ⟨w', final, s', hok, hopen, hscan, hlists⟩

/-- The file in the directory for data is renamed in the record, but not in the archive. -/
theorem small_record_differs : smallConfig.NamesValid ∧ PlainText smallScan.record.toList ∧
    Lists (Record.parse smallScan.record) smallEntries ∧
    ∃ w' final s', patch smallConfig native "w" smallWorkspace = .ok () w' ∧
      openZip "w" w' = .ok final w' ∧
      scanEntries "w" final = .ok s' ∧ ¬ Lists (Record.parse s'.record) final := by
  refine ⟨small_namesValid, small_plainText, small_lists, ?_⟩
  obtain ⟨w', hok⟩ := small_succeeds
  obtain ⟨sources, s', hopen, hfinal, hscan, hs'⟩ :=
    scan_of_patch small_wellFormed small_open small_scan
      (slash_not_mem_forkDistName small_namesValid) (by decide) (by decide) (by decide) hok
  refine ⟨w', _, s', hok, hopen, hscan, fun hlists => ?_⟩
  rw [hs', lists_patched_iff small_namesValid small_scan (nodup_of_openZip small_open)
    (by decide) (by decide) small_plainText small_lists hfinal] at hlists
  have hdata : renameAll smallConfig "p-1.data/b" =
      movedName smallScan.dir (smallConfig.renamed smallScan.dir)
      "p-1.data/b" := hlists _ (by decide)
  exact absurd hdata (by decide +kernel)

end Rebadge.Wheel
