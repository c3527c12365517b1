import Mathlib.Data.List.Forall2
import Mathlib.Data.List.Infix
import Rebadge.Proofs.Record.Paths
import Rebadge.Proofs.Record.Swapping

/-!
# Files that are not replaced

The renaming runs over digests and sizes too. A size survives it always (`size?_renamed`): what the
renaming brings in keeps a field from being a number. A digest survives it unless the name of the
package followed by a hyphen occurs in it (`renamed_digest`), which base64 for URLs does not
exclude. So the fork's record has the entries of the record in their order, and those of files that
were not replaced keep their size, but keep their digest only where the package's name does not
occur in it (`unreplaced_kept_iff`).
-/

namespace Rebadge

namespace Chars

variable {p q a b : List Char}

theorem Swaps.eq_of_same (h : Swaps p p a b) : a = b := by
  induction h with
  | nil => rfl
  | keep c _ ih => rw [ih]
  | swap _ ih => rw [ih]

theorem Swaps.eq_of_not_mem (h : Swaps p q a b) (hyphen : '-' ∉ b) : a = b := by
  induction h with
  | nil => rfl
  | keep c _ ih => rw [ih fun hmem => hyphen (List.mem_cons_of_mem c hmem)]
  | swap _ _ => exact absurd (List.mem_append_right _ List.mem_cons_self) hyphen

/-- Different names without hyphens, with a hyphen behind each, do not start one text. -/
theorem hyphened_ne (hp : '-' ∉ p) (hq : '-' ∉ q) (hne : p ≠ q) (x y : List Char) :
    q ++ ['-'] ++ x ≠ p ++ ['-'] ++ y := by
  rw [List.append_assoc, List.append_assoc, List.singleton_append, List.singleton_append, ne_eq,
    append_sep_inj hq hp]
  exact fun h => hne h.1.symm

end Chars

namespace Version

theorem dot_mem_stripFrom {s : List Char} (h : '.' ∈ s) : '.' ∈ stripFrom 0 s := by
  induction s with
  | nil => exact h
  | cons c s ih =>
    cases hm : localVersion? (c :: s) with
    | some m =>
      obtain ⟨-, hdot, -⟩ := localVersion?_eq_some hm
      rw [stripFrom_some hm]
      exact List.mem_append_left _ hdot
    | none =>
      rw [stripFrom_none hm]
      rcases List.mem_cons.1 h with rfl | hs
      · exact List.mem_cons_self
      · exact List.mem_cons_of_mem c (ih hs)

end Version

namespace Record

variable {c : Config} {replaced : List (String × Bytes)} {text : String}

/-! ## Sizes -/

/-- A text that ends up without hyphens and dots was not changed. -/
theorem renamed_eq_of_not_mem (hc : c.NamesValid) {s : List Char} (hyphen : '-' ∉ renamed c s)
    (hdot : '.' ∉ renamed c s) : renamed c s = s := by
  have hstrip := (swaps_renamed hc s).eq_of_not_mem hyphen
  have hnone : '.' ∉ s := fun hmem => hdot (hstrip ▸ Version.dot_mem_stripFrom hmem)
  rw [← hstrip, Version.stripFrom_eq_self hnone]

/-- **Sizes survive** the renaming, and nothing else becomes one. -/
theorem size?_renamed (hc : c.NamesValid) (s : List Char) : size? (renamed c s) = size? s := by
  have hnot : ∀ {t : List Char} {n : Nat}, size? t = some n → '-' ∉ t ∧ '.' ∉ t := by
    intro t n h
    constructor
    · exact fun hmem => by rcases mem_of_size? h hmem with hx | hx <;> exact absurd hx (by decide)
    · exact fun hmem => by rcases mem_of_size? h hmem with hx | hx <;> exact absurd hx (by decide)
  cases hbefore : size? s with
  | some n => rw [renamed_eq_self (hnot hbefore).1 (hnot hbefore).2, hbefore]
  | none =>
    cases hafter : size? (renamed c s) with
    | none => rfl
    | some n =>
      rw [renamed_eq_of_not_mem hc (hnot hafter).1 (hnot hafter).2, hbefore] at hafter
      exact absurd hafter (by simp)

/-! ## Digests -/

/-- The package's name and a hyphen occur in the digest, and the fork has another name. -/
def Spoils (c : Config) (digest : Option String) : Prop :=
  c.distName ≠ c.forkDistName ∧ ∃ d ∈ digest, packagePrefix c <:+: d.toList

instance (c : Config) (digest : Option String) : Decidable (Spoils c digest) :=
  decidable_of_iff (c.distName ≠ c.forkDistName ∧
      digest.any fun d => decide (packagePrefix c <:+: d.toList)) <| by
    cases digest <;> simp [Spoils]

/-- **A digest survives** the renaming unless the package's name and a hyphen occur in it. -/
theorem renamed_digest (hc : c.NamesValid) {digest : List Char}
    (hchars : ∀ x ∈ digest, isDigestChar x = true) :
    renamed c digest = digest ↔ ¬ (c.distName ≠ c.forkDistName ∧ packagePrefix c <:+: digest) := by
  have hdot : '.' ∉ digest := fun hmem => absurd (hchars _ hmem) (by decide)
  have hp := hyphen_not_mem_of_isWord (isWord_distName hc)
  have hq := hyphen_not_mem_of_isWord (isWord_forkDistName hc)
  constructor
  · rintro hsame ⟨hne, hinfix⟩
    -- Without dots only the replacement can change the digest.
    have hreplaced : Chars.replaceAll (packagePrefix c) (forkPrefix c) digest = digest := by
      refine (Version.stripFrom_eq_self fun hmem => ?_).symm.trans hsame
      rcases Chars.mem_replaceAll hmem with h | h
      · exact hdot h
      · rw [forkPrefix_eq, List.mem_append] at h
        exact h.elim (isWord_forkDistName hc).dot (by simp)
    unfold Chars.replaceAll at hreplaced
    rw [if_neg (packagePrefix_ne_nil c), packagePrefix_eq, forkPrefix_eq] at hreplaced
    rw [packagePrefix_eq] at hinfix
    have hapart := Chars.hyphened_ne hp hq fun h => hne (String.toList_inj.1 h)
    exact (Chars.replaceFrom_eq_self_iff hapart).1 hreplaced hinfix
  · intro hsound
    have hswaps := swaps_renamed hc digest
    rw [Version.stripFrom_eq_self hdot] at hswaps
    by_cases hsame : c.distName = c.forkDistName
    · rw [← hsame] at hswaps
      exact hswaps.eq_of_same.symm
    · have hinfix : ¬ packagePrefix c <:+: digest := fun h => hsound ⟨hsame, h⟩
      unfold renamed
      rw [Chars.replaceAll_eq_self (packagePrefix_ne_nil c) hinfix, Version.stripFrom_eq_self hdot]

/-! ## Entries -/

/-- A plain text whose lines have a digest in either alphabet as their second field, or none. -/
structure DigestText (text : List Char) : Prop extends PlainText text where
  digest : ∀ line ∈ Chars.split '\n' text, ∀ x ∈ ((Chars.split ',' line)[1]?).getD [],
    isDigestChar x = true

/-- The entry of a file for the fork: its path is renamed, and if the file was not replaced its size
is kept, but its digest only if the renaming does not spoil it. -/
structure Carried (c : Config) (replaced : List (String × Bytes)) (e e' : RecordEntry) : Prop where
  path : e'.path = renameAll c e.path
  size : e.path ∉ replaced.map Prod.fst → e'.size = e.size
  digest : e.path ∉ replaced.map Prod.fst → (e'.digest = e.digest ↔ ¬ Spoils c e.digest)

theorem entry?_row (row : Csv.Row) : entry? row = if row.headD [] = [] then none else
    some ⟨.ofList (row.headD []), if (row[1]?).getD [] = [] then none
      else some (.ofList ((row[1]?).getD [])), (row[2]?).bind size?⟩ := rfl

theorem head_split_forkLine (hc : c.NamesValid) (line : List Char) :
    (Chars.split ',' (renamed c (forkLine c.digestEncoding replaced line))).headD [] =
      renamed c (pathOf line) := by
  rw [head_split_comma, pathOf_renamed hc, pathOf_forkLine]

theorem forkLine_of_not_mem {encoding : DigestEncoding} {line : List Char}
    (h : String.ofList (pathOf line) ∉ replaced.map Prod.fst) :
    forkLine encoding replaced line = line := by
  rcases forkLine_cases encoding replaced line with hsame | ⟨-, path, content, hpath, hfresh⟩
  · exact hsame
  · have hnone : replaced.find? (fun r => r.1.toList == pathOf line) = none := by
      refine List.find?_eq_none.2 fun r hr heq => h ?_
      rw [← beq_iff_eq.1 heq, String.ofList_toList]
      exact List.mem_map_of_mem hr
    unfold forkLine
    rw [hnone]

variable (replaced) in
theorem carried_of_line (hc : c.NamesValid) {line : List Char}
    (hdigest : ∀ x ∈ ((Chars.split ',' line)[1]?).getD [], isDigestChar x = true) :
    Option.Rel (Carried c replaced) ( entry? (Chars.split ',' line))
      ( entry? (Chars.split ',' (renamed c (forkLine c.digestEncoding replaced line)))) := by
  rw [entry?_row, entry?_row, head_split_forkLine hc, head_split_comma]
  by_cases hpath : pathOf line = []
  · rw [hpath, renamed_nil, if_pos rfl, if_pos rfl]
    exact .none
  · rw [if_neg hpath, if_neg (renamed_ne_nil c hpath)]
    have hfields : String.ofList (pathOf line) ∉ replaced.map Prod.fst →
        Chars.split ',' (renamed c (forkLine c.digestEncoding replaced line)) =
          (Chars.split ',' line).map (renamed c) := fun hnot => by
      rw [forkLine_of_not_mem hnot, split_renamed hc (by decide)]
    refine .some ⟨?_, fun hnot => ?_, fun hnot => ?_⟩
    · rw [renameAll_eq, String.toList_ofList]
    · simp only [hfields hnot, List.getElem?_map]
      cases (Chars.split ',' line)[2]? with
      | none => rfl
      | some field => exact size?_renamed hc field
    · have hfield : ((Chars.split ',' line)[1]?.map (renamed c)).getD [] =
          renamed c (((Chars.split ',' line)[1]?).getD []) := by
        cases (Chars.split ',' line)[1]? with
        | none => exact (renamed_nil c).symm
        | some field => rfl
      simp only [hfields hnot, List.getElem?_map, hfield]
      generalize ((Chars.split ',' line)[1]?).getD [] = digest at hdigest ⊢
      by_cases hnil : digest = []
      · simp [hnil, renamed_nil, Spoils]
      · rw [if_neg hnil, if_neg (renamed_ne_nil c hnil), Option.some.injEq, String.ofList_inj,
          renamed_digest hc hdigest]
        simp [Spoils]

/-- **Unreplaced files.** The fork's record has an entry for each of the record, in order. Files
that were not replaced keep their sizes, and they keep their digests exactly where the package's
name followed by a hyphen does not occur in them. -/
theorem unreplaced_kept_iff (hc : c.NamesValid) (h : DigestText text.toList)
    (replaced : List (String × Bytes)) :
    List.Forall₂ (Carried c replaced)
    (parse text).entries (parse (forFork text replaced c)).entries := by
  rw [entries_parse h.toPlainText, entries_parse (h.forFork hc replaced),
    lines_forFork hc, List.filterMap_map]
  have hlines := h.digest
  generalize Chars.split '\n' text.toList = lines at hlines
  induction lines with
  | nil => exact .nil
  | cons line lines ih =>
    obtain ⟨hline, htail⟩ := List.forall_mem_cons.1 hlines
    have hcarried := carried_of_line replaced hc hline
    rw [List.filterMap_cons, List.filterMap_cons, Function.comp_apply]
    generalize entry? (Chars.split ',' line) = before at hcarried ⊢
    generalize entry? (Chars.split ',' (renamed c (forkLine c.digestEncoding replaced line))) =
      after at hcarried ⊢
    cases hcarried with
    | none => exact ih htail
    | some hentry => exact .cons hentry (ih htail)

/-- The fork of a package with a short name. -/
def shortConfig : Config := { package := "p", forkPackage := "f" }

/-- A record of one file, whose digest holds the name of the package and a hyphen. -/
def shortText : String := "p/a.py,sha256=yd8ktedmO9y2JPxAtIh9vVHp-83qTKPzZFFgZhx_0TM,7\n"

theorem digestText_shortText : DigestText shortText.toList where
  quote := by decide +kernel
  carriageReturn := by decide +kernel
  byteOrderMark := by decide +kernel
  digest := by
    have hall : (Chars.split '\n' shortText.toList).all
        (fun line => (((Chars.split ',' line)[1]?).getD []).all isDigestChar) = true := by
        decide +kernel
    exact fun line hline => List.all_eq_true.1 (List.all_eq_true.1 hall line hline)

theorem unreplaced_kept_short : shortConfig.NamesValid ∧ DigestText shortText.toList ∧
    List.Forall₂ (Carried shortConfig [])
    (parse shortText).entries (parse (forFork shortText [] shortConfig)).entries :=
  have hc : shortConfig.NamesValid := ⟨by decide, by decide⟩
  ⟨hc, digestText_shortText, unreplaced_kept_iff hc digestText_shortText []⟩

/-- The digest of that file does not survive, though nothing was replaced. -/
theorem short_digest_spoiled :
    (parse shortText).entries =
        [⟨"p/a.py", some "sha256=yd8ktedmO9y2JPxAtIh9vVHp-83qTKPzZFFgZhx_0TM", some 7⟩] ∧
      (parse (forFork shortText [] shortConfig)).entries =
        [⟨"p/a.py", some "sha256=yd8ktedmO9y2JPxAtIh9vVHf-83qTKPzZFFgZhx_0TM", some 7⟩] := by
  decide +kernel

end Record
end Rebadge
