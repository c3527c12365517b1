import Rebadge.Proofs.Archiver.Editing
import Rebadge.Proofs.Tree.Listing
import Rebadge.Proofs.Wheel.Scanning

/-!
# Which wheels are accepted

A scan counts in two ways: the first components of names that end with `.dist-info`, and the names
that end with `.dist-info/METADATA` or `.dist-info/RECORD` at any depth. It succeeds exactly if the
counts pin down one directory, in which the two files are and can be read, and then it reports what
that directory holds (`scan_outcomes`).
-/

namespace Rebadge

/-- Bytes are read as the text that they encode. -/
theorem ofUtf8?_eq_some {b : Bytes} {s : String} : ofUtf8? b = some s ↔ b = utf8 s := by
  constructor
  · intro h
    unfold ofUtf8? String.fromUTF8? at h
    split at h
    · have hbytes : b.toByteArray = s.toByteArray := by
        rw [← Option.some.inj h]
        rfl
      rwa [← toByteArray_utf8, List.toByteArray_inj] at hbytes
    · exact absurd h (by simp)
  · rintro rfl
    exact ofUtf8?_utf8 s

theorem Content.text?_eq_ok {c : Content} {s : String} : c.text? = .ok s ↔ c.image = utf8 s := by
  rw [← ofUtf8?_eq_some]
  unfold Content.text?
  cases ofUtf8? c.image <;> simp

theorem Sorted.eq_sort_iff {l names : List String} (hnodup : names.Nodup) :
    l = sort Text.le names ↔ l.Pairwise (· < ·) ∧ ∀ n, n ∈ l ↔ n ∈ names := by
  have hsorted : (sort Text.le names).Pairwise (· < ·) := by
    have hle : (sort Text.le names).Pairwise (Text.le · ·) :=
      pairwise_sort Text.le_total Text.le_trans names
    have hne : (sort Text.le names).Pairwise (· ≠ ·) := (sort_perm _ names).nodup_iff.2 hnodup
    refine (hle.and hne).imp fun h => ?_
    exact String.not_le.1 fun hba => h.2 (String.le_antisymm (Text.le_iff.1 h.1) hba)
  constructor
  · rintro rfl
    exact ⟨hsorted, fun n => mem_sort _⟩
  · rintro ⟨hl, hmem⟩
    have hne : ∀ {l : List String}, l.Pairwise (· < ·) → l.Nodup := fun h => h.imp fun hlt heq => by
      rw [heq] at hlt
      exact String.lt_irrefl _ hlt
    have hperm : l.Perm (sort Text.le names) :=
      (List.perm_ext_iff_of_nodup (hne hl) (hne hsorted)).2 fun n =>
        (hmem n).trans (mem_sort _).symm
    exact hperm.eq_of_pairwise (fun a b _ _ hab hba => absurd hba (String.lt_asymm hab)) hl hsorted

namespace Wheel

open Archiver.Native (openZip nodup_of_openZip)

variable {entries : List (Zip.Entry Content)} {names : List String} {path dir : String}
  {w w' : Workspace} {s : Scan}

/-! ## The directory -/

/-- A directory for metadata: it ends with `.dist-info` and is the first component of a name that is
longer. -/
def IsTopDir (names : List String) (dir : String) : Prop :=
  Text.hasSuffix dir dirSuffix = true ∧ ∃ n ∈ names, topLevel n = dir ∧ dir.length < n.length

theorem length_topLevel {name : String} : (topLevel name).length < name.length ↔
    topLevel name ≠ name := by
  have hstart : (topLevel name).toList <+: name.toList := by
    unfold topLevel
    rw [String.toList_ofList]
    exact List.takeWhile_prefix _
  rw [← String.length_toList, ← String.length_toList, ne_eq, ← String.toList_inj]
  constructor
  · intro hlt heq
    rw [heq] at hlt
    exact Nat.lt_irrefl _ hlt
  · intro hne
    exact Nat.lt_of_le_of_ne hstart.length_le fun hlength => hne (hstart.eq_of_length hlength)

theorem isTopDir_iff : IsTopDir names dir ↔ ∃ n ∈ names, distInfoOf? n = some dir := by
  have hname : ∀ n, distInfoOf? n = some dir ↔
      Text.hasSuffix dir dirSuffix = true ∧ topLevel n = dir ∧ dir.length < n.length := by
    intro n
    unfold distInfoOf?
    constructor
    · intro h
      obtain ⟨hcond, heq⟩ := Option.ite_none_right_eq_some.1 h
      rw [Bool.and_eq_true, bne_iff_ne] at hcond
      obtain rfl := Option.some.inj heq
      exact ⟨hcond.1, rfl, length_topLevel.2 hcond.2⟩
    · rintro ⟨hsuffix, rfl, hlength⟩
      rw [if_pos]
      rw [Bool.and_eq_true, bne_iff_ne]
      exact ⟨hsuffix, length_topLevel.1 hlength⟩
  unfold IsTopDir
  simp only [hname]
  exact ⟨fun ⟨hsuffix, n, hn, h⟩ => ⟨n, hn, hsuffix, h⟩,
    fun ⟨n, hn, hsuffix, h⟩ => ⟨hsuffix, n, hn, h⟩⟩

theorem distInfoDir_eq_ok : distInfoDir names = .ok dir ↔ ∀ d, IsTopDir names d ↔ d = dir := by
  rw [distInfoDir_ok]
  simp only [isTopDir_iff]
  constructor
  · rintro ⟨hdir, honly⟩ d
    refine ⟨fun ⟨n, hn, hd⟩ => honly n hn d hd, ?_⟩
    rintro rfl
    exact hdir
  · intro h
    exact ⟨(h dir).2 rfl, fun n hn d hd => (h d).1 ⟨n, hn, hd⟩⟩

theorem isTopDir_of_mem (hsuffix : Text.hasSuffix dir dirSuffix = true) (hslash : '/' ∉ dir.toList)
    (h : dir ++ "/" ∈ names) : IsTopDir names dir := by
  refine ⟨hsuffix, dir ++ "/", h, ?_, ?_⟩
  · have hchars : ∀ c ∈ dir.toList, (c != '/') = true := by
      intro c hc
      rw [bne_iff_ne]
      rintro rfl
      exact hslash hc
    unfold topLevel
    rw [String.toList_append, List.takeWhile_append_of_pos hchars, ← String.toList_inj,
      String.toList_ofList]
    exact List.append_nil _
  · rw [String.length_append]
    exact Nat.lt_add_of_pos_right (by decide)

/-! ## The files -/

/-- There is one file of a name in directories for metadata, at any depth: the one in `dir`, which
is a text. -/
structure OnlyFile (entries : List (Zip.Entry Content)) (dir file text : String) : Prop where
  only : ∀ n, n ∈ Zip.names entries ∧ Text.hasSuffix n (".dist-info/" ++ file) = true ↔
    n = dir ++ "/" ++ file
  text : ∃ e ∈ entries, e.name = dir ++ "/" ++ file ∧ e.intact = true ∧ e.data.image = utf8 text

theorem hasSuffix_inDir (hsuffix : Text.hasSuffix dir dirSuffix = true) (file : String) :
    Text.hasSuffix (inDir dir file) (dirSuffix ++ "/" ++ file) = true := by
  obtain ⟨front, hfront⟩ := Text.hasSuffix_iff.1 hsuffix
  refine Text.hasSuffix_iff.2 ⟨front, ?_⟩
  unfold inDir
  simp only [String.toList_append, hfront, List.append_assoc]

theorem onlyFile_iff (path : String) (hnodup : (Zip.names entries).Nodup)
    (hsuffix : Text.hasSuffix dir dirSuffix = true) {file text : String} :
    fileCount (Zip.names entries) file = 1 ∧ entryText path entries (inDir dir file) = .ok text ↔
      OnlyFile entries dir file text := by
  have hmark : dirSuffix ++ "/" ++ file = ".dist-info/" ++ file := rfl
  have htext : entryText path entries (inDir dir file) = .ok text ↔
      ∃ e ∈ entries, e.name = dir ++ "/" ++ file ∧ e.intact = true ∧ e.data.image = utf8 text := by
    simp only [entryText_ok, Zip.find?_eq_some_iff hnodup, Content.text?_eq_ok, and_assoc]
    rfl
  unfold fileCount
  rw [htext, List.countP_eq_length_filter, List.length_eq_one_iff]
  constructor
  · rintro ⟨⟨m, hm⟩, e, he, hname, hrest⟩
    have hmem : ∀ n, n ∈ Zip.names entries ∧ Text.hasSuffix n (".dist-info/" ++ file) = true ↔
        n = m := by
      intro n
      rw [← List.mem_singleton (a := n), ← hm, List.mem_filter, hmark]
    have hin := (hmem (dir ++ "/" ++ file)).1
      ⟨hname ▸ Zip.mem_names he, hasSuffix_inDir hsuffix file⟩
    exact ⟨fun n => by rw [hmem, hin], e, he, hname, hrest⟩
  · rintro ⟨honly, htext⟩
    refine ⟨⟨dir ++ "/" ++ file, List.perm_singleton.1 ?_⟩, htext⟩
    refine (List.perm_ext_iff_of_nodup (hnodup.filter _) (List.nodup_singleton _)).2 fun n => ?_
    rw [List.mem_filter, List.mem_singleton, hmark, honly]

/-! ## The scan -/

/-- A wheel with one directory for metadata that can be used, and the texts of its two files. -/
structure Usable (entries : List (Zip.Entry Content)) (dir metadata record : String) : Prop where
  only : ∀ d, IsTopDir (Zip.names entries) d ↔ d = dir
  metadata : OnlyFile entries dir "METADATA" metadata
  record : OnlyFile entries dir "RECORD" record

/-- What a scan reports of a wheel: the directory, the two texts, and the names of the entries below
the directory in strict order. -/
structure Reports (entries : List (Zip.Entry Content)) (s : Scan) : Prop where
  usable : Usable entries s.dir s.metadata s.record
  sorted : s.entries.Pairwise (· < ·)
  mem : ∀ n, n ∈ s.entries ↔ n ∈ Zip.names entries ∧ Text.hasPrefix n (s.dir ++ "/") = true

theorem scanEntries_iff (hnodup : (Zip.names entries).Nodup) : scanEntries path entries = .ok s ↔
    Reports entries s := by
  have hlisted : s.entries =
      Sorted.sort Text.le ((Zip.names entries).filter (Text.hasPrefix · (s.dir ++ "/"))) ↔
      s.entries.Pairwise (· < ·) ∧ ∀ n, n ∈ s.entries ↔ n ∈ Zip.names entries ∧
          Text.hasPrefix n (s.dir ++ "/") = true := by
    rw [Sorted.eq_sort_iff (hnodup.filter _)]
    simp only [List.mem_filter]
  rw [scanEntries_ok, distInfoDir_eq_ok, hlisted]
  constructor
  · rintro ⟨hdir, hmetadata, hrecord, hmetadataText, hrecordText, hsorted, hmem⟩
    have hsuffix := ((hdir s.dir).2 rfl).1
    exact ⟨⟨hdir, (onlyFile_iff path hnodup hsuffix).1 ⟨hmetadata, hmetadataText⟩,
      (onlyFile_iff path hnodup hsuffix).1 ⟨hrecord, hrecordText⟩⟩, hsorted, hmem⟩
  · rintro ⟨⟨hdir, hmetadata, hrecord⟩, hsorted, hmem⟩
    have hsuffix := ((hdir s.dir).2 rfl).1
    have hmetadata' := (onlyFile_iff path hnodup hsuffix).2 hmetadata
    have hrecord' := (onlyFile_iff path hnodup hsuffix).2 hrecord
    exact ⟨hdir, hmetadata'.1, hrecord'.1, hmetadata'.2, hrecord'.2, hsorted, hmem⟩

theorem scan_iff : scan path w = .ok s w' ↔ w = w' ∧ ∃ entries, openZip path w = .ok entries w ∧
    Reports entries s := by
  rw [scan_ok]
  refine and_congr_right fun _ => exists_congr fun entries => and_congr_right fun hopen => ?_
  exact scanEntries_iff (nodup_of_openZip hopen)

theorem Usable.exists_reports {metadata record : String} (h : Usable entries dir metadata record)
    (hnodup : (Zip.names entries).Nodup) : ∃ s, Reports entries s := by
  obtain ⟨hsorted, hmem⟩ :=
    (Sorted.eq_sort_iff (hnodup.filter (Text.hasPrefix · (dir ++ "/")))).1 rfl
  exact ⟨⟨dir, metadata, record, _⟩, h, hsorted, fun n => (hmem n).trans List.mem_filter⟩

/-- **Which wheels are accepted.** A scan succeeds exactly if the archive can be read and has one
directory for metadata that can be used; it reports this directory, the texts of the two files and
the names below the directory in strict order. The entry of a directory itself makes it count, and
so does a copy of one of the two files deeper in the tree. -/
theorem scan_outcomes (path : String) (w : Workspace) :
    ((∃ s w', scan path w = .ok s w') ↔
      ∃ entries, openZip path w = .ok entries w ∧ ∃ dir metadata record,
        Usable entries dir metadata record) ∧
    (∀ s w', scan path w = .ok s w' ↔ w = w' ∧ ∃ entries, openZip path w = .ok entries w ∧
      Reports entries s) ∧
    (∀ names dir, Text.hasSuffix dir ".dist-info" = true → '/' ∉ dir.toList → dir ++ "/" ∈ names →
      IsTopDir names dir) ∧
    ∀ entries, openZip path w = .ok entries w → ∀ file ∈ ["METADATA", "RECORD"],
      ∀ n ∈ Zip.names entries,
      ∀ m ∈ Zip.names entries, n ≠ m → Text.hasSuffix n (".dist-info/" ++ file) = true →
        Text.hasSuffix m (".dist-info/" ++ file) = true → ¬ ∃ s w', scan path w = .ok s w' := by
  refine ⟨?_, fun _ _ => scan_iff, fun _ _ hsuffix hslash hmem =>
    isTopDir_of_mem hsuffix hslash hmem, ?_⟩
  · simp only [scan_iff]
    constructor
    · rintro ⟨s, w', -, entries, hopen, hreports⟩
      exact ⟨entries, hopen, s.dir, s.metadata, s.record, hreports.usable⟩
    · rintro ⟨entries, hopen, dir, metadata, record, husable⟩
      obtain ⟨s, hs⟩ := husable.exists_reports (nodup_of_openZip hopen)
      exact ⟨s, w, rfl, entries, hopen, hs⟩
  · rintro entries hopen file hfile n hn m hm hne hsuffix hsuffix' ⟨s, w', hscan⟩
    obtain ⟨-, opened, hopen', hreports⟩ := scan_iff.1 hscan
    obtain rfl : entries = opened := by
      rw [hopen] at hopen'
      cases hopen'
      rfl
    have honly : ∃ text, OnlyFile entries s.dir file text := by
      simp only [List.mem_cons, List.not_mem_nil, or_false] at hfile
      rcases hfile with rfl | rfl
      · exact ⟨_, hreports.usable.metadata⟩
      · exact ⟨_, hreports.usable.record⟩
    obtain ⟨text, honly⟩ := honly
    exact hne (((honly.only n).1 ⟨hn, hsuffix⟩).trans ((honly.only m).1 ⟨hm, hsuffix'⟩).symm)

end Wheel
end Rebadge
