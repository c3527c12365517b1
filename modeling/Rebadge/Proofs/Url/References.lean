import Mathlib.Data.List.Basic
import Mathlib.Data.List.TakeWhile
import Rebadge.Text.CharClass
import Rebadge.Url.Parser

/-!
# References from a directory

A name of letters, digits and the signs that file names are written with goes into a URL as it is:
none of its characters is encoded or cut, and none ends a scheme, a segment or the path. So on the
page of a directory such a name leads to the file of that name in it, with or without the sign of
the directory itself in front (`resolve_name`), and a name with a slash behind it leads to no file
(`resolve_subdirectory`).
-/

namespace Rebadge.Url

/-! ## Characters of names -/

/-- An ASCII letter, a digit, or a sign that file names are written with. -/
def isNameChar (c : Char) : Bool := c.isAlphanum || ['.', '_', '-', '+', '!'].contains c

/-- A name of such characters, neither empty nor a step along the path. -/
structure IsName (s : String) : Prop where
  chars : ∀ c ∈ s.toList, isNameChar c = true
  ne_empty : s ≠ ""
  ne_current : s ≠ "."
  ne_parent : s ≠ ".."

/-- A character that every part of the reading leaves alone. -/
structure Inert (c : Char) : Prop where
  visible : 0x20 < c.toNat
  kept : pathSet c = false
  slash : isSlash true c = false
  ending : endsPath c = false
  ne_colon : c ≠ ':'
  ne_quote : c ≠ '"'
  lower_dot : c.toLower = '.' → c = '.'
  lower_percent : c.toLower ≠ '%'

instance (c : Char) : Decidable (Inert c) :=
  decidable_of_iff (0x20 < c.toNat ∧ pathSet c = false ∧ isSlash true c = false ∧
    endsPath c = false ∧ c ≠ ':' ∧
    c ≠ '"' ∧ (c.toLower = '.' → c = '.') ∧ c.toLower ≠ '%')
    ⟨fun ⟨hvisible, hkept, hslash, hending, hcolon, hquote, hdot, hpercent⟩ =>
        ⟨hvisible, hkept, hslash, hending, hcolon, hquote, hdot, hpercent⟩,
      fun h => ⟨h.visible, h.kept, h.slash, h.ending, h.ne_colon, h.ne_quote,
        h.lower_dot, h.lower_percent⟩⟩

theorem inert_of_isNameChar {c : Char} (h : isNameChar c = true) : Inert c := by
  -- only the 128 ASCII characters are in question
  have hascii : c.toNat < 128 := by
    unfold isNameChar at h
    rcases Bool.or_eq_true_iff.1 h with h | h
    · exact Text.toNat_lt_of_isAlphanum h
    · simp only [List.contains_eq_mem, decide_eq_true_eq, List.mem_cons, List.not_mem_nil, or_false]
        at h
      rcases h with rfl | rfl | rfl | rfl | rfl <;> decide
  have hall : ∀ n < 128, isNameChar (Char.ofNat n) = true →
    Inert (Char.ofNat n) := by decide +kernel
  rw [← Char.ofNat_toNat c] at h ⊢
  exact hall c.toNat hascii h

/-! ## Cutting the input -/

variable {s : List Char} {name : String} {done : List String}
  {special file : Bool} {open_ : List Char}

theorem cleaned_eq_self (h : ∀ c ∈ s, 0x20 < c.toNat) : cleaned s = s := by
  have hblank : ∀ {t : List Char}, (∀ c ∈ t, 0x20 < c.toNat) →
      t.dropWhile (fun c => decide (c.toNat ≤ 0x20)) = t := by
    intro t ht
    cases t with
    | nil => rfl
    | cons c t => exact List.dropWhile_cons_of_neg (by simpa using ht c List.mem_cons_self)
  unfold cleaned Chars.dropEndWhile
  dsimp only
  rw [hblank h, hblank (fun c hc => h c (List.mem_reverse.1 hc)),
    List.reverse_reverse, List.filter_eq_self]
  intro c hc
  have hc' := h c hc
  unfold isTabOrLineEnd
  simp only [Bool.not_eq_true', Bool.or_eq_false_iff, beq_eq_false_iff_ne]
  refine ⟨⟨?_, ?_⟩, ?_⟩ <;> rintro rfl <;> exact absurd hc' (by decide)

theorem scheme?_eq_none (h : ':' ∉ s) : scheme? s = none := by
  unfold scheme?
  dsimp only
  split
  · next rest hrest =>
    have hmem : ':' ∈ s.dropWhile isSchemeChar := by simp [hrest]
    exact absurd ((List.dropWhile_suffix _).subset hmem) h
  · rfl

theorem encode_eq_self {set : Char → Bool} (h : ∀ c ∈ s, set c = false) :
    encode set s = .ofList s := by
  have hchars : s.flatMap (encodeChar set) = s.flatMap fun c => [c] := by
    refine List.flatMap_congr fun c hc => ?_
    unfold encodeChar
    rw [if_neg (by simp [h c hc])]
  unfold encode
  rw [hchars, List.flatMap_singleton']

theorem takeWhile_path (h : ∀ c ∈ s, endsPath c = false) : s.takeWhile (!endsPath ·) = s :=
  List.takeWhile_eq_self_iff.2 fun c hc => by simp [h c hc]

theorem dropWhile_path (h : ∀ c ∈ s, endsPath c = false) : s.dropWhile (!endsPath ·) = [] :=
  List.dropWhile_eq_nil_iff.2 fun c hc => by simp [h c hc]

/-! ## Segments -/

theorem segmentsFrom_segment (h : ∀ c ∈ s, isSlash special c = false) :
    segmentsFrom special file done open_ s =
      addSegment file done (encode pathSet (open_ ++ s)) false := by
  induction s generalizing open_ with
  | nil => rw [segmentsFrom, List.append_nil]
  | cons c s ih =>
    rw [List.forall_mem_cons] at h
    rw [segmentsFrom, if_neg (by simp [h.1]), ih h.2, List.append_assoc, List.singleton_append]

theorem segmentsFrom_slash (h : ∀ c ∈ s, isSlash special c = false) (t : List Char) :
    segmentsFrom special file done open_ (s ++ '/' :: t) =
      segmentsFrom special file (addSegment file done (encode pathSet (open_ ++ s)) true) [] t := by
  induction s generalizing open_ with
  | nil => rw [List.nil_append, segmentsFrom, if_pos (by simp [isSlash]), List.append_nil]
  | cons c s ih =>
    rw [List.forall_mem_cons] at h
    rw [List.cons_append, segmentsFrom, if_neg (by simp [h.1]), ih h.2, List.append_assoc,
      List.singleton_append]

theorem IsName.undotted (h : IsName name) :
    isDoubleDot name = false ∧ isSingleDot name = false := by
  have hinert : ∀ c ∈ name.toList, Inert c := fun c hc => inert_of_isNameChar (h.chars c hc)
  have hpercent : '%' ∉ name.toList.map Char.toLower := by
    rw [List.mem_map]
    rintro ⟨c, hc, heq⟩
    exact (hinert c hc).lower_percent heq
  have hdots : ∀ n, name.toList.map Char.toLower = List.replicate n '.' →
      name.toList = List.replicate n '.' := by
    intro n hn
    rw [List.eq_replicate_iff] at hn ⊢
    rw [List.length_map] at hn
    exact ⟨hn.1, fun c hc => (hinert c hc).lower_dot (hn.2 _ (List.mem_map_of_mem hc))⟩
  have hnot : ∀ {t : String}, '%' ∈ t.toList → name.toList.map Char.toLower ≠ t.toList :=
    fun ht heq => hpercent (heq ▸ ht)
  unfold isDoubleDot isSingleDot
  simp only [List.contains_eq_mem, decide_eq_false_iff_not, List.mem_cons,
    List.not_mem_nil, or_false, not_or, ← String.toList_inj, String.toList_ofList]
  exact ⟨⟨fun heq => h.ne_parent (String.toList_inj.1 (hdots 2 heq)), hnot (by decide),
    hnot (by decide), hnot (by decide)⟩,
    fun heq => h.ne_current (String.toList_inj.1 (hdots 1 heq)), hnot (by decide)⟩

theorem addSegment_name (h : IsName name) (done : List String) :
    addSegment false done name false = done ++ [name] := by
  obtain ⟨hdouble, hsingle⟩ := h.undotted
  unfold addSegment
  rw [if_neg (by simp [hdouble]), if_neg (by simp [hsingle]), if_neg (by simp)]

/-! ## Directories -/

/-- The page of a directory: a web page whose path ends with a slash, without query and fragment. -/
structure IsDirectory (u : Url) : Prop where
  scheme : u.scheme = "http" ∨ u.scheme = "https"
  path : ∃ parts, u.path = .segments (parts ++ [""])
  query : u.query = none
  fragment : u.fragment = none

/-- The URL with another path. -/
def withPath (u : Url) (parts : List String) : Url := { u with path := .segments parts }

variable {page : Url} {parts : List String}

theorem resolve_eq (hpage : IsDirectory page) {reference : String}
    (hinert : ∀ c ∈ reference.toList, Inert c ∨ c = '/') :
    page.resolve reference = relativeTo page reference.toList := by
  have hvisible : ∀ c ∈ reference.toList, 0x20 < c.toNat := by
    intro c hc
    rcases hinert c hc with h | rfl
    · exact h.visible
    · decide
  have hcolon : ':' ∉ reference.toList := by
    intro hmem
    rcases hinert _ hmem with h | h
    · exact h.ne_colon rfl
    · exact absurd h (by decide)
  have hscheme : page.scheme ≠ "file" := by
    rcases hpage.scheme with h | h <;> rw [h] <;> decide
  obtain ⟨parts, hpath⟩ := hpage.path
  unfold resolve parseWith
  dsimp only
  rw [cleaned_eq_self hvisible, scheme?_eq_none hcolon, hpath]
  dsimp only
  split
  · next rest hrest =>
    rcases hinert '#' (by simp [hrest]) with h | h
    · exact absurd h.ending (by decide)
    · exact absurd h (by decide)
  · exact if_neg hscheme

theorem pathFrom_eq (hpage : IsDirectory page) (done : List String) (s : List Char) :
    pathFrom page.scheme done s = segmentsFrom true false done [] s := by
  unfold pathFrom
  rcases hpage.scheme with h | h <;> rw [h] <;> rfl

theorem withRest_nil (hpage : IsDirectory page) (parts : List String) :
    withRest (page.withPath parts) [] = page.withPath parts := by
  show Url.mk _ _ _ none none = Url.mk _ _ _ page.query page.fragment
  rw [hpage.query, hpage.fragment]
  rfl

theorem resolve_relative (hpage : IsDirectory page) (hpath : page.path = .segments (parts ++ [""]))
    {reference : String} (hinert : ∀ c ∈ reference.toList, Inert c ∨ c = '/') {c : Char}
    (hhead : reference.toList.head? = some c) (hc : Inert c) :
    page.resolve reference =
      .ok (page.withPath (segmentsFrom true false parts [] reference.toList)) := by
  have hending : ∀ c ∈ reference.toList, endsPath c = false := by
    intro c hc
    rcases hinert c hc with h | rfl
    · exact h.ending
    · decide
  have hdone : (segmentsOf page).dropLast = parts := by
    unfold segmentsOf
    rw [hpath, List.dropLast_concat]
  rw [resolve_eq hpage hinert]
  unfold relativeTo
  dsimp only
  rw [takeWhile_path hending, dropWhile_path hending, hdone, pathFrom_eq hpage]
  split
  · next hnil => simp [hnil] at hhead
  · next hquery =>
    obtain rfl : '?' = c := by simpa [hquery] using hhead
    exact absurd hc.ending (by decide)
  · next hhash =>
    obtain rfl : '#' = c := by simpa [hhash] using hhead
    exact absurd hc.ending (by decide)
  · next d rest _ _ hcons =>
    obtain rfl : d = c := by simpa [hcons] using hhead
    rw [if_neg (by simp [hc.slash])]
    exact congrArg Except.ok (withRest_nil hpage _)

theorem resolve_root (hpage : IsDirectory page) : page.resolve "/" = .ok (page.withPath [""]) := by
  rw [resolve_eq hpage (by simp)]
  show Except.ok (withRest (page.withPath (pathFrom page.scheme [] [])) []) = _
  rw [pathFrom_eq hpage, withRest_nil hpage]
  rfl

theorem render_concat (parts : List String) (name : String) :
    (Path.segments (parts ++ [name])).render = (Path.segments (parts ++ [""])).render ++ name := by
  unfold Path.render
  simp [String.join_append, String.append_assoc]

/-- The last segment does not change what stands in front of the path. -/
theorem beforePath_withPath (page : Url) (parts : List String) (last : String) :
    (page.withPath (parts ++ [last])).beforePath = match page.authority with
      | some a => "//" ++ authorityText a
      | none => if parts.head? = some "" then "/." else "" := by
  unfold beforePath withPath
  cases page.authority with
  | some a => rfl
  | none =>
    cases parts with
    | nil => simp
    | cons p parts =>
      by_cases hp : p = ""
      · subst hp
        cases parts <;> rfl
      · simp [hp]

theorem toText_withPath (hpage : IsDirectory page) (hpath : page.path = .segments (parts ++ [""]))
    (name : String) : (page.withPath (parts ++ [name])).toText = page.toText ++ name := by
  have hbare : ∀ last, (page.withPath (parts ++ [last])).toText = page.scheme ++ ":" ++
      (page.withPath (parts ++ [last])).beforePath ++ (Path.segments (parts ++ [last])).render := by
    intro last
    show _ ++ marked "?" page.query ++ marked "#" page.fragment = _
    rw [hpage.query, hpage.fragment]
    simp only [marked, String.append_empty]
    rfl
  have hself : page = page.withPath (parts ++ [""]) := by
    unfold withPath
    rw [← hpath]
  conv => rhs; rw [hself]
  rw [hbare, hbare, beforePath_withPath, beforePath_withPath, render_concat, ← String.append_assoc]

theorem resolve_name (hpage : IsDirectory page) (hpath : page.path = .segments (parts ++ [""]))
    (hname : IsName name) :
    page.resolve name = .ok (page.withPath (parts ++ [name])) ∧
      page.resolve ("./" ++ name) = .ok (page.withPath (parts ++ [name])) := by
  have hinert : ∀ c ∈ name.toList, Inert c := fun c hc => inert_of_isNameChar (hname.chars c hc)
  have hslash : ∀ c ∈ name.toList, isSlash true c = false := fun c hc => (hinert c hc).slash
  have hencode : encode pathSet name.toList = name := by
    rw [encode_eq_self fun c hc => (hinert c hc).kept, String.ofList_toList]
  have hsegments : segmentsFrom true false parts [] name.toList = parts ++ [name] := by
    rw [segmentsFrom_segment hslash, List.nil_append, hencode, addSegment_name hname]
  constructor
  · obtain ⟨c, s, hs⟩ :=
      List.exists_cons_of_ne_nil fun h => hname.ne_empty (String.toList_eq_nil_iff.1 h)
    have hrelative : ∀ c ∈ name.toList, Inert c ∨ c = '/' := fun c hc => Or.inl (hinert c hc)
    rw [resolve_relative hpage hpath hrelative (by rw [hs]; rfl) (hinert c (by simp [hs])),
      hsegments]
  · have hlist : ("./" ++ name).toList = ['.'] ++ '/' :: name.toList := by simp
    have hdot : addSegment false parts (encode pathSet ['.']) true = parts := by
      rw [show encode pathSet ['.'] = "." by decide]
      rfl
    have hdotInert : Inert '.' := by decide
    have hdotted : ∀ c ∈ ("./" ++ name).toList, Inert c ∨ c = '/' := by
      rw [hlist, List.forall_mem_append]
      exact ⟨List.forall_mem_singleton.2 (Or.inl hdotInert),
        List.forall_mem_cons.2 ⟨Or.inr rfl, fun c hc => Or.inl (hinert c hc)⟩⟩
    rw [resolve_relative hpage hpath hdotted (by rw [hlist]; rfl) hdotInert, hlist,
      segmentsFrom_slash (List.forall_mem_singleton.2 hdotInert.slash),
      List.nil_append, hdot, hsegments]

theorem resolve_subdirectory (hpage : IsDirectory page)
    (hname : ∀ c ∈ name.toList, isNameChar c = true) :
    ∃ parts, page.resolve (name ++ "/") = .ok (page.withPath (parts ++ [""])) := by
  have hinert : ∀ c ∈ name.toList, Inert c := fun c hc => inert_of_isNameChar (hname c hc)
  have hlist : (name ++ "/").toList = name.toList ++ '/' :: [] := by simp
  obtain ⟨parts, hpath⟩ := hpage.path
  by_cases hempty : name = ""
  · subst hempty
    exact ⟨[], resolve_root hpage⟩
  · obtain ⟨c, s, hs⟩ := List.exists_cons_of_ne_nil fun h => hempty (String.toList_eq_nil_iff.1 h)
    have hslashed : ∀ c ∈ (name ++ "/").toList, Inert c ∨ c = '/' := by
      rw [hlist, List.forall_mem_append]
      exact ⟨fun c hc => Or.inl (hinert c hc), by simp⟩
    rw [resolve_relative hpage hpath hslashed (by rw [hlist, hs]; rfl)
      (hinert c (by simp [hs])), hlist, segmentsFrom_slash fun c hc => (hinert c hc).slash]
    exact ⟨_, rfl⟩

end Rebadge.Url
