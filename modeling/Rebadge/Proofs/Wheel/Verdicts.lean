import Rebadge.Proofs.Wheel.Verifying

/-!
# What a validation reports

Each path has one verdict, which the first thing that is wrong with it decides: the record does not
list it, the archive has no file of its name, the file cannot be read (`verdict_iff`), the digest
cannot be decoded, the digest or the size is not that of the file (`fileVerdict_iff`). A validation
ends with the defects among the verdicts in the order of the paths, or with the failure of the first
path whose verdict is one (`validation_outcomes`).
-/

namespace Rebadge

namespace Wheel

variable {entries : List (Zip.Entry Content)} {record : Record} {p : String} {row : RecordEntry}
  {file : Zip.Entry Content} {content : Bytes} {x : Except Failure (Option Defect)}

/-! ## The verdict on a file -/

/-- What is said of the content of a file that the record has a row for. -/
inductive FileVerdict (p : String) (row : RecordEntry) (content : Bytes) :
    Except Failure (Option Defect) → Prop where
  | undecodable (digest : String) (why : DigestError) (hdigest : row.digest = some digest)
    (hwhy : Digest.verify digest content = .error why) :
    FileVerdict p row content (.error (.record why))
  | wrongDigest (hdigest : ∀ digest, row.digest = some digest →
      Digest.verify digest content = .ok false) :
    FileVerdict p row content
      (.ok (some (.wrongDigest p (row.digest.getD "") (Digest.ofContent content .standard))))
  | wrongSize (digest : String) (hdigest : row.digest = some digest)
    (hverify : Digest.verify digest content = .ok true) (hsize : row.size ≠ some content.length) :
    FileVerdict p row content (.ok (some (.wrongSize p row.size content.length)))
  | sound (digest : String) (hdigest : row.digest = some digest)
    (hverify : Digest.verify digest content = .ok true) (hsize : row.size = some content.length) :
    FileVerdict p row content (.ok none)

theorem fileDefect?_of_ok {matched : Bool} (h : digestMatches row.digest content = .ok matched) :
    fileDefect? p row content = .ok (
      if matched = true then if row.size = some content.length then none
      else some (.wrongSize p row.size content.length)
      else some (.wrongDigest p (row.digest.getD "") (Digest.ofContent content .standard))) := by
  unfold fileDefect?
  rw [h]
  cases matched with
  | false => rfl
  | true =>
    by_cases hsize : row.size = some content.length <;>
      simp [hsize, bind, Except.bind, Except.mapError, pure, Except.pure]

theorem fileDefect?_of_error {why : DigestError}
    (h : digestMatches row.digest content = .error why) :
    fileDefect? p row content = .error (.record why) := by
  unfold fileDefect?
  rw [h]
  rfl

theorem digestMatches_some {digest : String} (h : row.digest = some digest) :
    digestMatches row.digest content = Digest.verify digest content := by
  rw [h]
  rfl

/-- A digest that is there but not of the content fails, and so does one that is not there. -/
theorem digestMatches_eq_false : digestMatches row.digest content = .ok false ↔
    ∀ digest, row.digest = some digest → Digest.verify digest content = .ok false := by
  unfold digestMatches
  cases row.digest <;> simp

theorem fileVerdict_iff : fileDefect? p row content = x ↔ FileVerdict p row content x := by
  constructor
  · rintro rfl
    cases hmatches : digestMatches row.digest content with
    | error why =>
      rw [fileDefect?_of_error hmatches]
      cases hdigest : row.digest with
      | none => exact absurd hmatches (by simp [hdigest, digestMatches])
      | some digest =>
        exact .undecodable digest why hdigest ((digestMatches_some hdigest).symm.trans hmatches)
    | ok matched =>
      rw [fileDefect?_of_ok hmatches]
      cases matched with
      | false => exact .wrongDigest (digestMatches_eq_false.1 hmatches)
      | true =>
        cases hdigest : row.digest with
        | none => exact absurd hmatches (by simp [hdigest, digestMatches])
        | some digest =>
          have hverify := (digestMatches_some hdigest).symm.trans hmatches
          rw [if_pos rfl]
          by_cases hsize : row.size = some content.length
          · rw [if_pos hsize]
            exact .sound digest hdigest hverify hsize
          · rw [if_neg hsize]
            exact .wrongSize digest hdigest hverify hsize
  · intro h
    cases h with
    | undecodable digest why hdigest hwhy =>
      exact fileDefect?_of_error ((digestMatches_some hdigest).trans hwhy)
    | wrongDigest hdigest => exact fileDefect?_of_ok (digestMatches_eq_false.2 hdigest)
    | wrongSize digest hdigest hverify hsize =>
      rw [fileDefect?_of_ok ((digestMatches_some hdigest).trans hverify), if_pos rfl, if_neg hsize]
    | sound digest hdigest hverify hsize =>
      rw [fileDefect?_of_ok ((digestMatches_some hdigest).trans hverify), if_pos rfl, if_pos hsize]

/-! ## The verdict on a path -/

/-- The first row of the record for a path. -/
def FirstRow (record : Record) (p : String) (row : RecordEntry) : Prop :=
  ∃ before after, record.entries = before ++ row :: after ∧ row.path = p ∧ ∀ r ∈ before, r.path ≠ p

/-- The archive stores a file under a name; directories are none. -/
def StoresFile (entries : List (Zip.Entry Content)) (p : String)
    (file : Zip.Entry Content) : Prop :=
  file ∈ entries ∧ file.name = p ∧ file.isFile = true

/-- What is said of a path: that it is in order, what is wrong with it, or why this cannot be
told. -/
inductive Verdict (entries : List (Zip.Entry Content)) (record : Record) (p : String) :
    Except Failure (Option Defect) → Prop where
  | missingEntry (hrow : ∀ row ∈ record.entries, row.path ≠ p) :
    Verdict entries record p (.ok (some (.missingEntry p)))
  | missingFile (row : RecordEntry) (hrow : FirstRow record p row)
      (hfile : ∀ file, ¬ StoresFile entries p file) :
    Verdict entries record p (.ok (some (.missingFile p)))
  | unreadable (row : RecordEntry) (file : Zip.Entry Content) (hrow : FirstRow record p row)
    (hfile : StoresFile entries p file) (hdamaged : file.intact = false) :
    Verdict entries record p (.error (.io .invalidChecksum))
  | checked (row : RecordEntry) (file : Zip.Entry Content) (hrow : FirstRow record p row)
    (hfile : StoresFile entries p file) (hintact : file.intact = true)
    {x : Except Failure (Option Defect)} (hverdict : FileVerdict p row file.data.image x) :
    Verdict entries record p x

theorem find?_row_eq_some : record.find? p = some row ↔ FirstRow record p row := by
  unfold Record.find? FirstRow
  rw [List.find?_eq_some_iff_append]
  simp only [beq_iff_eq, Bool.not_eq_true', beq_eq_false_iff_ne]
  constructor
  · rintro ⟨hpath, before, after, hentries, hbefore⟩
    exact ⟨before, after, hentries, hpath, hbefore⟩
  · rintro ⟨before, after, hentries, hpath, hbefore⟩
    exact ⟨hpath, before, after, hentries, hbefore⟩

theorem find?_row_eq_none : record.find? p = none ↔ ∀ row ∈ record.entries, row.path ≠ p := by
  unfold Record.find?
  rw [List.find?_eq_none]
  simp only [beq_iff_eq]

theorem find?_file_eq_some (hnodup : (Zip.names entries).Nodup) :
    Zip.find? (entries.filter (·.isFile)) p = some file ↔ StoresFile entries p file := by
  rw [Zip.find?_eq_some_iff (hnodup.sublist (List.filter_sublist.map _)), List.mem_filter,
    and_assoc, and_comm (a := _ = true)]
  rfl

theorem find?_file_eq_none (hnodup : (Zip.names entries).Nodup) :
    Zip.find? (entries.filter (·.isFile)) p = none ↔ ∀ file, ¬ StoresFile entries p file := by
  rw [Option.eq_none_iff_forall_ne_some]
  simp only [ne_eq, find?_file_eq_some hnodup]

theorem defect?_of_stored (hnodup : (Zip.names entries).Nodup) (hrow : FirstRow record p row)
    (hfile : StoresFile entries p file) : defect? entries record p =
      if file.intact = true then fileDefect? p row file.data.image
      else .error (.io .invalidChecksum) := by
  unfold defect?
  rw [find?_row_eq_some.2 hrow, (find?_file_eq_some hnodup).2 hfile]
  show (file.read.mapError .io >>= fun content => fileDefect? p row content.image) = _
  unfold Zip.Entry.read
  cases file.intact <;> rfl

/-- **The verdict** is the one that the checks give, one after the other. -/
theorem verdict_iff (hnodup : (Zip.names entries).Nodup) :
    defect? entries record p = x ↔ Verdict entries record p x := by
  constructor
  · rintro rfl
    cases hfind : record.find? p with
    | none =>
      have heq : defect? entries record p = .ok (some (.missingEntry p)) := by
        unfold defect?
        rw [hfind]
      exact heq ▸ .missingEntry (find?_row_eq_none.1 hfind)
    | some row =>
      have hrow := find?_row_eq_some.1 hfind
      cases hstored : Zip.find? (entries.filter (·.isFile)) p with
      | none =>
        have heq : defect? entries record p = .ok (some (.missingFile p)) := by
          unfold defect?
          rw [hfind, hstored]
        exact heq ▸ .missingFile row hrow ((find?_file_eq_none hnodup).1 hstored)
      | some file =>
        have hfile := (find?_file_eq_some hnodup).1 hstored
        rw [defect?_of_stored hnodup hrow hfile]
        cases hintact : file.intact with
        | false => exact .unreadable row file hrow hfile hintact
        | true => exact .checked row file hrow hfile hintact (fileVerdict_iff.1 rfl)
  · intro h
    cases h with
    | missingEntry hrow =>
      unfold defect?
      rw [find?_row_eq_none.2 hrow]
    | missingFile row hrow hfile =>
      unfold defect?
      rw [find?_row_eq_some.2 hrow, (find?_file_eq_none hnodup).2 hfile]
    | unreadable row file hrow hfile hdamaged =>
      rw [defect?_of_stored hnodup hrow hfile, if_neg (by simp [hdamaged])]
    | checked row file hrow hfile hintact hverdict =>
      rw [defect?_of_stored hnodup hrow hfile, if_pos hintact]
      exact fileVerdict_iff.2 hverdict

/-- The record vouches for a path: its first row for it has the digest and the size of the file that
is stored. -/
def Vouched (entries : List (Zip.Entry Content)) (record : Record) (p : String) : Prop :=
  ∃ row file digest, FirstRow record p row ∧ StoresFile entries p file ∧ file.intact = true ∧
    row.digest = some digest ∧ Digest.verify digest file.data.image = .ok true ∧
    row.size = some file.data.image.length

/-- A path that is listed and stored cannot be checked: the file cannot be read, or the digest
cannot be decoded. -/
def Blocks (entries : List (Zip.Entry Content)) (record : Record) (p : String)
    (e : Failure) : Prop :=
  ∃ row file, FirstRow record p row ∧ StoresFile entries p file ∧
    (file.intact = false ∧ e = .io .invalidChecksum ∨ file.intact = true ∧ ∃ digest why,
      row.digest = some digest ∧ Digest.verify digest file.data.image = .error why ∧
      e = .record why)

theorem verdict_none_iff : Verdict entries record p (.ok none) ↔ Vouched entries record p := by
  constructor
  · intro h
    cases h with
    | checked row file hrow hfile hintact hverdict =>
      cases hverdict with
      | sound digest hdigest hverify hsize =>
        exact ⟨row, file, digest, hrow, hfile, hintact, hdigest, hverify, hsize⟩
  · rintro ⟨row, file, digest, hrow, hfile, hintact, hdigest, hverify, hsize⟩
    exact .checked row file hrow hfile hintact (.sound digest hdigest hverify hsize)

theorem verdict_error_iff {e : Failure} : Verdict entries record p (.error e) ↔
    Blocks entries record p e := by
  constructor
  · intro h
    cases h with
    | unreadable row file hrow hfile hdamaged =>
      exact ⟨row, file, hrow, hfile, Or.inl ⟨hdamaged, rfl⟩⟩
    | checked row file hrow hfile hintact hverdict =>
      cases hverdict with
      | undecodable digest why hdigest hwhy =>
        exact ⟨row, file, hrow, hfile, Or.inr ⟨hintact, digest, why, hdigest, hwhy, rfl⟩⟩
  · rintro ⟨row, file, hrow, hfile, ⟨hdamaged, rfl⟩ | ⟨hintact, digest, why, hdigest, hwhy, rfl⟩⟩
    · exact .unreadable row file hrow hfile hdamaged
    · exact .checked row file hrow hfile hintact (.undecodable digest why hdigest hwhy)

/-! ## The validation of several paths -/

/-- The path that a defect is about. -/
def Defect.path : Defect → String
  | missingEntry path => path
  | missingFile path => path
  | wrongDigest path _ _ => path
  | wrongSize path _ _ => path

theorem Verdict.path {d : Defect} (h : Verdict entries record p (.ok (some d))) : d.path = p := by
  cases h with
  | missingEntry => rfl
  | missingFile => rfl
  | checked row file hrow hfile hintact hverdict => cases hverdict <;> rfl

theorem defects_eq_ok (hnodup : (Zip.names entries).Nodup) {paths : List String}
    {found : List Defect} :
    defects entries record paths = .ok found ↔
      ∃ verdicts, List.Forall₂ (fun p v => Verdict entries record p (.ok v)) paths verdicts ∧
        found = verdicts.filterMap id := by
  unfold defects
  simp only [except_map_ok, except_mapM_ok, verdict_iff hnodup]
  exact exists_congr fun verdicts => and_congr_right fun _ => eq_comm

theorem defects_eq_error (hnodup : (Zip.names entries).Nodup) {paths : List String} {e : Failure} :
    defects entries record paths = .error e ↔ ∃ before p after, paths = before ++ p :: after ∧
      Blocks entries record p e ∧ ∀ q ∈ before, ∀ e', ¬ Blocks entries record q e' := by
  have hchecked : ∀ q, (∃ v, Verdict entries record q (.ok v)) ↔
      ∀ e', ¬ Blocks entries record q e' := by
    intro q
    simp only [← verdict_error_iff, ← verdict_iff hnodup]
    cases defect? entries record q <;> simp
  unfold defects
  simp only [except_map_error, except_mapM_error, verdict_iff hnodup, verdict_error_iff, hchecked,
    and_comm]

/-- The defects are those of some of the paths, in their order. -/
theorem sublist_of_verdicts {paths : List String} {verdicts : List (Option Defect)}
    (h : List.Forall₂ (fun p v => Verdict entries record p (.ok v)) paths verdicts) :
    ((verdicts.filterMap id).map Defect.path).Sublist paths := by
  induction h with
  | nil => exact .slnil
  | @cons p v paths verdicts hfirst _ ih =>
    cases v with
    | none => exact ih.cons p
    | some d =>
      rw [← hfirst.path]
      exact ih.cons_cons d.path

/-- **What a validation reports.** Nothing, exactly if the record vouches for all paths. If all
paths can be checked, it is the defect of each path that has one, in the order of the paths; if not,
the validation fails as the first path that cannot be checked. The check of a wheel on disk passes
exactly if the wheel can be scanned again and nothing is reported. -/
theorem validation_outcomes (stored : List (Zip.Entry Content)) (record : Record)
    (paths : List String) :
    let entries := Zip.visible stored
    (defects entries record paths = .ok [] ↔ ∀ p ∈ paths, Vouched entries record p) ∧
      (∀ found, defects entries record paths = .ok found ↔
        ∃ verdicts, List.Forall₂ (fun p v => Verdict entries record p (.ok v)) paths verdicts ∧
          found = verdicts.filterMap id) ∧
      (∀ found, defects entries record paths = .ok found → (found.map Defect.path).Sublist paths) ∧
      (∀ e, defects entries record paths = .error e ↔
        ∃ before p after, paths = before ++ p :: after ∧
        Blocks entries record p e ∧ ∀ q ∈ before, ∀ e', ¬ Blocks entries record q e') ∧
      ∀ path w u w', verify path paths w = .ok u w' ↔ w = w' ∧ ∃ s opened, scan path w = .ok s w ∧
        Archiver.Native.openZip path w = .ok opened w ∧
        defects opened (Record.parse s.record) paths = .ok [] := by
  intro entries
  have hnodup : (Zip.names entries).Nodup := Zip.nodup_visible stored
  refine ⟨?_, fun _ => defects_eq_ok hnodup, ?_, fun _ => defects_eq_error hnodup, ?_⟩
  · rw [defects_ok]
    simp only [← defect?_ok, verdict_iff hnodup, verdict_none_iff]
  · intro found h
    obtain ⟨verdicts, hverdicts, rfl⟩ := (defects_eq_ok hnodup).1 h
    exact sublist_of_verdicts hverdicts
  · intro path w u w'
    constructor
    · intro h
      obtain ⟨opened, s, hopen, hs⟩ := scan_of_verify h
      obtain ⟨rfl, hsound⟩ := (verify_ok hopen hs).1 h
      exact ⟨rfl, s, opened, scan_ok.2 ⟨rfl, opened, hopen, hs⟩, hopen, defects_ok.2 hsound⟩
    · rintro ⟨rfl, s, opened, hscan, hopen, hdefects⟩
      obtain ⟨-, opened', hopen', hs⟩ := scan_ok.1 hscan
      obtain rfl : opened' = opened := by
        rw [hopen] at hopen'
        cases hopen'
        rfl
      exact (verify_ok hopen hs).2 ⟨rfl, defects_ok.1 hdefects⟩

end Wheel
end Rebadge
