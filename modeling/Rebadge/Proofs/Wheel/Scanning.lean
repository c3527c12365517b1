import Rebadge.Proofs.Act
import Rebadge.Proofs.Path
import Rebadge.Proofs.Zip

/-!
# What a scan finds

A scan succeeds exactly if the names of the entries have one directory for metadata, METADATA and
RECORD are there once, and both can be read (`scanEntries_ok`). The entries of the directory are
those whose path starts with it.
-/

namespace Rebadge

namespace Text

theorem hasPrefix_iff {s pre : String} :
    hasPrefix s pre = true ↔ ∃ rest, s.toList = pre.toList ++ rest := by
  unfold hasPrefix
  rw [List.isPrefixOf_iff_prefix]
  exact ⟨fun ⟨rest, h⟩ => ⟨rest, h.symm⟩, fun ⟨rest, h⟩ => ⟨rest, h.symm⟩⟩

theorem hasSuffix_iff {s suffix : String} :
    hasSuffix s suffix = true ↔ ∃ front, s.toList = front ++ suffix.toList := by
  unfold hasSuffix
  rw [List.isSuffixOf_iff_suffix]
  exact ⟨fun ⟨front, h⟩ => ⟨front, h.symm⟩, fun ⟨front, h⟩ => ⟨front, h.symm⟩⟩

theorem hasPrefix_slash {s name : String} (hname : '/' ∉ name.toList) :
    hasPrefix s (name ++ "/") = true ↔ ∃ rest, rest ≠ [] ∧ split s '/' = name :: rest := by
  rw [hasPrefix_iff]
  constructor
  · rintro ⟨rest, hrest⟩
    refine ⟨(Chars.split '/' rest).map String.ofList, by simp [Chars.split_ne_nil], ?_⟩
    unfold split
    rw [hrest, String.toList_append, List.append_assoc]
    show (Chars.split '/' (name.toList ++ '/' :: rest)).map String.ofList = _
    rw [Chars.split_cons_of_not_mem hname, List.map_cons, String.ofList_toList]
  · rintro ⟨rest, hne, hrest⟩
    refine ⟨("/".intercalate rest).toList, ?_⟩
    rw [← intercalate_split s, hrest, ← List.singleton_append, intercalate_append (by simp) hne,
      String.intercalate_singleton, String.toList_append]

end Text

namespace Wheel

/-! ## The directory of an entry -/

theorem split_eq_topLevel (name : String) :
    ∃ rest, Text.split name '/' = topLevel name :: rest := by
  have hhead := Chars.head?_split '/' name.toList
  cases hsplit : Chars.split '/' name.toList with
  | nil => exact absurd hsplit (Chars.split_ne_nil _ _)
  | cons p ps =>
    rw [hsplit, List.head?_cons, Option.some.injEq] at hhead
    refine ⟨ps.map String.ofList, ?_⟩
    unfold Text.split topLevel
    rw [hsplit, hhead, List.map_cons]

theorem slash_topLevel (name : String) : '/' ∉ (topLevel name).toList := by
  obtain ⟨rest, hrest⟩ := split_eq_topLevel name
  exact Text.not_mem_of_mem_split (s := name) (by rw [hrest]; exact List.mem_cons_self)

/-- An entry lies in a directory for metadata if that is the first of several pieces of its path. -/
theorem distInfoOf?_eq_some {name dir : String} : distInfoOf? name = some dir ↔
    Text.hasSuffix dir dirSuffix = true ∧ ∃ rest, rest ≠ [] ∧
    Text.split name '/' = dir :: rest := by
  obtain ⟨rest, hrest⟩ := split_eq_topLevel name
  have htop : topLevel name = name ↔ rest = [] := by
    constructor
    · intro h
      have hsplit := Path.split_plain (slash_topLevel name)
      rw [h, hrest] at hsplit
      exact (List.cons.inj hsplit).2
    · rintro rfl
      have hname := Text.intercalate_split name
      rwa [hrest, String.intercalate_singleton] at hname
  unfold distInfoOf?
  rw [hrest]
  by_cases hcond : (Text.hasSuffix (topLevel name) dirSuffix && topLevel name != name) = true
  · rw [if_pos hcond]
    rw [Bool.and_eq_true, bne_iff_ne, ne_eq, htop] at hcond
    constructor
    · intro h
      rw [← Option.some.inj h]
      exact ⟨hcond.1, rest, hcond.2, rfl⟩
    · rintro ⟨-, rest', -, heq⟩
      rw [(List.cons.inj heq).1]
  · rw [if_neg hcond]
    rw [Bool.and_eq_true, bne_iff_ne, ne_eq, htop] at hcond
    refine iff_of_false (by simp) ?_
    rintro ⟨hsuffix, rest', hne, heq⟩
    obtain ⟨htop', rfl⟩ := List.cons.inj heq
    exact hcond ⟨by rwa [htop'], hne⟩

theorem slash_of_distInfoOf? {name dir : String} (h : distInfoOf? name = some dir) :
    '/' ∉ dir.toList := by
  obtain ⟨-, rest, -, hrest⟩ := distInfoOf?_eq_some.1 h
  exact Text.not_mem_of_mem_split (s := name) (by rw [hrest]; exact List.mem_cons_self)

/-! ## The only directory -/

theorem mem_distInfoDirs {names : List String} {dir : String} :
    dir ∈ distInfoDirs names ↔ ∃ n ∈ names, distInfoOf? n = some dir := by
  have hfold : ∀ dirs seen : List String,
      dir ∈ dirs.foldl (fun seen d => if seen.contains d then seen else d :: seen) seen ↔
      dir ∈ seen ∨ dir ∈ dirs := by
    intro dirs
    induction dirs with
    | nil => simp
    | cons d dirs ih =>
      intro seen
      rw [List.foldl_cons, ih]
      by_cases hd : seen.contains d = true
      · rw [if_pos hd]
        rw [List.contains_iff_mem] at hd
        constructor
        · rintro (h | h)
          · exact Or.inl h
          · exact Or.inr (List.mem_cons_of_mem _ h)
        · rintro (h | h)
          · exact Or.inl h
          · rcases List.mem_cons.1 h with rfl | h
            · exact Or.inl hd
            · exact Or.inr h
      · rw [if_neg hd]
        simp only [List.mem_cons, or_assoc, or_left_comm]
  unfold distInfoDirs
  rw [List.mem_reverse, hfold, List.mem_filterMap]
  simp

theorem nodup_distInfoDirs (names : List String) : (distInfoDirs names).Nodup := by
  have hfold : ∀ dirs seen : List String, seen.Nodup →
      (dirs.foldl (fun seen d => if seen.contains d then seen else d :: seen) seen).Nodup := by
    intro dirs
    induction dirs with
    | nil => exact fun _ h => h
    | cons d dirs ih =>
      intro seen hseen
      rw [List.foldl_cons]
      refine ih _ ?_
      by_cases hd : seen.contains d = true
      · rwa [if_pos hd]
      · rw [if_neg hd, List.nodup_cons]
        exact ⟨fun hmem => hd (List.contains_iff_mem.2 hmem), hseen⟩
  unfold distInfoDirs
  exact List.nodup_reverse.2 (hfold _ _ List.nodup_nil)

theorem distInfoDir_ok {names : List String} {dir : String} : distInfoDir names = .ok dir ↔
    (∃ n ∈ names, distInfoOf? n = some dir) ∧ ∀ n ∈ names, ∀ dir', distInfoOf? n = some dir' →
    dir' = dir := by
  have hdirs : distInfoDir names = .ok dir ↔ distInfoDirs names = [dir] := by
    unfold distInfoDir
    split
    · next h => simp [h]
    · next d h => simp [h]
    · next dirs hnil hone =>
      refine iff_of_false (by simp) fun h => ?_
      exact hone dir h
  rw [hdirs]
  constructor
  · intro h
    refine ⟨mem_distInfoDirs.1 (by simp [h]), fun n hn dir' hdir' => ?_⟩
    have hmem := mem_distInfoDirs.2 ⟨n, hn, hdir'⟩
    rw [h] at hmem
    exact List.mem_singleton.1 hmem
  · rintro ⟨⟨n, hn, hdir⟩, honly⟩
    refine List.perm_singleton.1
      ((List.perm_ext_iff_of_nodup (nodup_distInfoDirs names) (by simp)).2 fun d => ?_)
    rw [mem_distInfoDirs, List.mem_singleton]
    constructor
    · rintro ⟨n', hn', hd⟩
      exact honly n' hn' d hd
    · rintro rfl
      exact ⟨n, hn, hdir⟩

/-! ## The scan -/

variable {path : String} {entries : List (Zip.Entry Content)}

theorem text_ok {e : Zip.Entry Content} {text : String} :
    e.text = .ok text ↔ e.intact = true ∧ e.data.text? = .ok text := by
  unfold Zip.Entry.text Zip.Entry.read
  cases e.intact <;> simp [Except.bind]

theorem entryText_ok {name text : String} : entryText path entries name = .ok text ↔
    ∃ e, Zip.find? entries name = some e ∧ e.intact = true ∧ e.data.text? = .ok text := by
  unfold entryText
  cases Zip.find? entries name with
  | none => simp
  | some e => simp only [except_mapError_ok, text_ok, Option.some.injEq, exists_eq_left']

/-- **The scan.** -/
theorem scanEntries_ok {s : Scan} : scanEntries path entries = .ok s ↔
    distInfoDir (Zip.names entries) = .ok s.dir ∧ fileCount (Zip.names entries) "METADATA" = 1 ∧
      fileCount (Zip.names entries) "RECORD" = 1 ∧
      entryText path entries s.metadataPath = .ok s.metadata ∧
      entryText path entries s.recordPath = .ok s.record ∧
      s.entries = Sorted.sort Text.le
      ((Zip.names entries).filter (Text.hasPrefix · (s.dir ++ "/"))) := by
  have hunique : ∀ file (u : Unit), checkUnique (Zip.names entries) file = .ok u ↔
      fileCount (Zip.names entries) file = 1 := by
    intro file u
    unfold checkUnique
    by_cases h : fileCount (Zip.names entries) file = 1 <;> simp [h]
  unfold scanEntries
  simp only [except_bind_ok, except_mapError_ok, hunique]
  constructor
  · rintro ⟨dir, hdir, _, hmetadata, _, hrecord, metadata, htext, record, htext', hs⟩
    obtain rfl := Except.ok.inj hs
    exact ⟨hdir, hmetadata, hrecord, htext, htext', rfl⟩
  · rintro ⟨hdir, hmetadata, hrecord, htext, htext', hentries⟩
    refine ⟨s.dir, hdir, (), hmetadata, (), hrecord, s.metadata, htext, s.record, htext', ?_⟩
    rw [← hentries]
    rfl

theorem scan_ok {w w' : Workspace} {s : Scan} : scan path w = .ok s w' ↔
    w = w' ∧ ∃ entries, Archiver.Native.openZip path w = .ok entries w ∧
    scanEntries path entries = .ok s := by
  unfold scan
  simp only [Act.bind_ok, Act.ofExcept_ok]
  constructor
  · rintro ⟨entries, w₁, hopen, hscan, rfl⟩
    obtain ⟨rfl, -⟩ := Archiver.Native.openZip_ok.1 hopen
    exact ⟨rfl, entries, hopen, hscan⟩
  · rintro ⟨rfl, entries, hopen, hscan⟩
    exact ⟨entries, w, hopen, hscan, rfl⟩

end Wheel
end Rebadge
