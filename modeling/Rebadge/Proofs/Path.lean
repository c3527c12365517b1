import Mathlib.Data.List.Induction
import Mathlib.Data.List.Nodup
import Rebadge.Path
import Rebadge.Proofs.Text.Separator

/-!
# Paths by their pieces

A path is its pieces with slashes between them. Behind a base whose last piece is a name, more names
are more components, and dropping the last name gives the parent.
-/

namespace Rebadge

namespace Text

/-! ## Pieces -/

theorem toList_intercalate_slash (ps : List String) :
    ("/".intercalate ps).toList = Chars.join '/' (ps.map String.toList) := by
  rw [String.toList_intercalate]
  rfl

theorem intercalate_split (s : String) : "/".intercalate (split s '/') = s := by
  refine String.toList_inj.1 ?_
  unfold split
  rw [toList_intercalate_slash, List.map_map, show String.toList ∘ String.ofList = id
    from funext fun l => by simp, List.map_id, Chars.join_split]

theorem not_mem_of_mem_split {s p : String} {sep : Char} (h : p ∈ split s sep) :
    sep ∉ p.toList := by
  obtain ⟨q, hq, rfl⟩ := List.mem_map.1 h
  rw [String.toList_ofList]
  exact Chars.not_mem_of_mem_split hq

theorem split_chars (s : String) : Chars.split '/' s.toList = (split s '/').map String.toList := by
  unfold split
  rw [List.map_map, show String.toList ∘ String.ofList = id
    from funext fun l => by simp, List.map_id]

theorem split_ne_nil (s : String) (sep : Char) : split s sep ≠ [] := by
  unfold split
  simp [Chars.split_ne_nil]

theorem split_chars_intercalate {ps : List String} (hne : ps ≠ []) (h : ∀ p ∈ ps, '/' ∉ p.toList) :
    Chars.split '/' ("/".intercalate ps).toList = ps.map String.toList := by
  rw [toList_intercalate_slash, Chars.split_join (by simpa using hne)]
  intro p hp
  obtain ⟨q, hq, rfl⟩ := List.mem_map.1 hp
  exact h q hq

theorem split_intercalate {ps : List String} (hne : ps ≠ []) (h : ∀ p ∈ ps, '/' ∉ p.toList) :
    split ("/".intercalate ps) '/' = ps := by
  unfold split
  rw [split_chars_intercalate hne h, List.map_map,
    show String.ofList ∘ String.toList = id from funext fun l => by simp, List.map_id]

theorem intercalate_append {ps qs : List String} (hp : ps ≠ []) (hq : qs ≠ []) :
    "/".intercalate (ps ++ qs) = "/".intercalate ps ++ "/" ++ "/".intercalate qs :=
  String.intercalate_append_of_ne_nil hp hq

end Text

namespace Path

/-- A name: neither empty nor `.` nor `..`, and without slashes. -/
structure IsPlain (name : String) : Prop where
  ne_empty : name ≠ ""
  ne_current : name ≠ "."
  ne_parent : name ≠ ".."
  slash : '/' ∉ name.toList

instance (name : String) : Decidable (IsPlain name) :=
  decidable_of_iff (name ≠ "" ∧ name ≠ "." ∧ name ≠ ".." ∧ '/' ∉ name.toList)
    ⟨fun h => ⟨h.1, h.2.1, h.2.2.1, h.2.2.2⟩,
      fun h => ⟨h.ne_empty, h.ne_current, h.ne_parent, h.slash⟩⟩

/-- The pieces of a path that ends in a name and can be continued. -/
structure IsBase (ps : List String) : Prop where
  slash : ∀ p ∈ ps, '/' ∉ p.toList
  last : ∃ front name, ps = front ++ [name] ∧ name ≠ "" ∧ name ≠ "."

variable {base ps : List String}

theorem IsBase.ne_nil (h : IsBase base) : base ≠ [] := by
  obtain ⟨front, name, rfl, -⟩ := h.last
  simp

theorem IsBase.append (h : IsBase base) {names : List String} (hn : ∀ p ∈ names, IsPlain p) :
    IsBase (base ++ names) where
  slash := by
    intro p hp
    rcases List.mem_append.1 hp with hp | hp
    · exact h.slash p hp
    · exact (hn p hp).slash
  last := by
    induction names using List.reverseRecOn with
    | nil => simpa using h.last
    | append_singleton names name _ =>
      exact ⟨base ++ names,
        name, by simp, (hn name (by simp)).ne_empty, (hn name (by simp)).ne_current⟩

theorem isBase_of_plain {names : List String} (hn : ∀ p ∈ names, IsPlain p) (hne : names ≠ []) :
    IsBase names where
  slash := fun p hp => (hn p hp).slash
  last := by
    have hlast := hn _ (List.getLast_mem hne)
    exact ⟨names.dropLast, names.getLast hne, (List.dropLast_concat_getLast hne).symm,
      hlast.ne_empty, hlast.ne_current⟩

theorem split_base (h : IsBase base) : Text.split ("/".intercalate base) '/' = base :=
  Text.split_intercalate h.ne_nil h.slash

/-! ## Ends of a path -/

theorem getLast?_intercalate (hslash : ∀ p ∈ ps, '/' ∉ p.toList)
    (front : List String) {name : String} (hps : ps = front ++ [name]) (hname : name ≠ "") :
    ("/".intercalate ps).toList.getLast? = name.toList.getLast? := by
  have hne : name.toList ≠ [] := fun h => hname (String.toList_eq_nil_iff.1 h)
  subst hps
  by_cases hf : front = []
  · rw [hf, List.nil_append, String.intercalate_singleton]
  · rw [Text.intercalate_append hf (by simp), String.intercalate_singleton, String.toList_append,
      List.getLast?_append, List.getLast?_eq_some_getLast hne, Option.some_or]

theorem endsInSlash_append_slash (s : String) : endsInSlash (s ++ "/") = true := by
  unfold endsInSlash
  rw [String.toList_append, List.getLast?_append_of_ne_nil _ (by decide)]
  rfl

theorem endsInSlash_base (h : IsBase base) : endsInSlash ("/".intercalate base) = false := by
  obtain ⟨front, name, hps, hne, -⟩ := h.last
  unfold endsInSlash
  rw [getLast?_intercalate h.slash front hps hne]
  cases hlast : name.toList.getLast? with
  | none => rfl
  | some c =>
    have hmem := List.mem_of_getLast? hlast
    have hslash := h.slash name (by simp [hps])
    have hc : c ≠ '/' := fun heq => hslash (heq ▸ hmem)
    simpa using hc

theorem intercalate_ne_empty (h : IsBase base) : "/".intercalate base ≠ "" := by
  obtain ⟨front, name, hps, hne, -⟩ := h.last
  intro hempty
  have hlast := getLast?_intercalate h.slash front hps hne
  rw [hempty] at hlast
  have hnil := List.getLast?_eq_none_iff.1 hlast.symm
  exact hne (String.toList_eq_nil_iff.1 hnil)

theorem intercalate_append_ne_empty (h : IsBase base) (more : List String) :
    "/".intercalate (base ++ more) ≠ "" := by
  by_cases hmore : more = []
  · rw [hmore, List.append_nil]
    exact intercalate_ne_empty h
  · rw [Text.intercalate_append h.ne_nil hmore, ne_eq, String.append_eq_empty_iff,
      String.append_eq_empty_iff]
    exact fun hempty => absurd hempty.1.2 (by decide)

/-- An absolute path starts with an empty piece and has another one. -/
theorem isAbsolute_intercalate (hslash : ∀ p ∈ ps, '/' ∉ p.toList) :
    isAbsolute ("/".intercalate ps) = decide (ps.head? = some "" ∧ 1 < ps.length) := by
  unfold isAbsolute
  rw [Text.toList_intercalate_slash]
  cases ps with
  | nil => rfl
  | cons p rest =>
    have hhead : ∀ c s, p.toList = c :: s → c ≠ '/' ∧ p ≠ "" := by
      intro c s hp
      refine ⟨fun heq => hslash p (by simp) (by simp [hp, heq]), ?_⟩
      rintro rfl
      exact absurd hp (by simp)
    cases rest with
    | nil =>
      rw [List.map_singleton, Chars.join_singleton]
      cases hp : p.toList with
      | nil => simp
      | cons c s => simpa using (hhead c s hp).1
    | cons q rest =>
      rw [List.map_cons, Chars.join_cons '/' _ (by simp)]
      cases hp : p.toList with
      | nil =>
        rw [String.toList_eq_nil_iff.1 hp]
        simp
      | cons c s =>
        obtain ⟨hc, hne⟩ := hhead c s hp
        simp [hc, hne]

theorem isAbsolute_append (h : IsBase base) {more : List String}
    (hmore : ∀ p ∈ more, '/' ∉ p.toList) :
    isAbsolute ("/".intercalate (base ++ more)) = isAbsolute ("/".intercalate base) := by
  have hslash : ∀ p ∈ base ++ more, '/' ∉ p.toList := by
    intro p hp
    rcases List.mem_append.1 hp with hp | hp
    · exact h.slash p hp
    · exact hmore p hp
  rw [isAbsolute_intercalate hslash, isAbsolute_intercalate h.slash]
  obtain ⟨front, name, rfl, hne, -⟩ := h.last
  cases front with
  | nil => simp [hne]
  | cons p front =>
    have hlen : 1 < ((p :: front) ++ [name] ++ more).length ∧
        1 < ((p :: front) ++ [name]).length := by
      simp only [List.length_append, List.length_cons, List.length_nil]
      omega
    rw [decide_eq_decide]
    constructor
    · rintro ⟨hhead, -⟩
      exact ⟨hhead, hlen.2⟩
    · rintro ⟨hhead, -⟩
      exact ⟨hhead, hlen.1⟩

/-! ## Joining -/

theorem join_eq (h : IsBase base) {part : String} (hpart : isAbsolute part = false) :
    join ("/".intercalate base) part = "/".intercalate (base ++ Text.split part '/') := by
  unfold join
  rw [if_neg (by simp [hpart, intercalate_ne_empty h]), if_neg (by simp [endsInSlash_base h]),
    Text.intercalate_append h.ne_nil (Text.split_ne_nil part '/'), Text.intercalate_split]

/-- A slash at the end of the base does not matter. -/
theorem join_slash (h : IsBase base) {part : String} (hpart : isAbsolute part = false) :
    join ("/".intercalate (base ++ [""])) part = "/".intercalate (base ++ Text.split part '/') := by
  have htext : "/".intercalate (base ++ [""]) = "/".intercalate base ++ "/" := by
    rw [Text.intercalate_append h.ne_nil (by simp), String.intercalate_singleton,
      String.append_empty]
  rw [htext, Text.intercalate_append h.ne_nil (Text.split_ne_nil part '/'), Text.intercalate_split]
  simp [join, hpart, endsInSlash]

theorem not_isAbsolute_of_head {p : String} (h : (Text.split p '/').head? ≠ some "") :
    isAbsolute p = false := by
  have habsolute := isAbsolute_intercalate fun q (hq : q ∈ Text.split p '/') =>
    Text.not_mem_of_mem_split hq
  rw [Text.intercalate_split] at habsolute
  rw [habsolute, decide_eq_false_iff_not]
  exact fun hboth => h hboth.1

theorem not_isAbsolute_of_plain {p : String} (h : ∀ q ∈ Text.split p '/', IsPlain q) :
    isAbsolute p = false := by
  refine not_isAbsolute_of_head fun hhead => ?_
  exact (h "" (List.mem_of_head? hhead)).ne_empty rfl

theorem isAbsolute_plain {name : String} (h : '/' ∉ name.toList) : isAbsolute name = false := by
  unfold isAbsolute
  cases hname : name.toList with
  | nil => rfl
  | cons c s =>
    have hc : c ≠ '/' := fun heq => h (by simp [hname, heq])
    simpa using hc

theorem split_plain {name : String} (h : '/' ∉ name.toList) : Text.split name '/' = [name] := by
  unfold Text.split
  rw [Chars.split_of_not_mem h, List.map_singleton, String.ofList_toList]

theorem join_plain (h : IsBase base) {name : String} (hname : '/' ∉ name.toList) :
    join ("/".intercalate base) name = "/".intercalate (base ++ [name]) := by
  rw [join_eq h (isAbsolute_plain hname), split_plain hname]

theorem split_join_relative (dir : String) {part : String} (h : isAbsolute part = false) :
    ∃ front, Text.split (join dir part) '/' = front ++ Text.split part '/' ∧
      isAbsolute (join dir part) = isAbsolute dir ∧
      (dir = "" ∧ front = [] ∨ dir ≠ "" ∧
          (Text.split dir '/' = front ∨ Text.split dir '/' = front ++ [""])) := by
  have happend : ∀ a : List Char, Text.split (.ofList (a ++ '/' :: part.toList)) '/' =
      (Chars.split '/' a).map String.ofList ++ Text.split part '/' := by
    intro a
    unfold Text.split
    rw [String.toList_ofList, Chars.split_append_sep, List.map_append]
  have habs : ∀ a, dir ≠ "" → isAbsolute (dir ++ a) = isAbsolute dir := by
    intro a hne
    unfold isAbsolute
    cases hlist : dir.toList with
    | nil => exact absurd (String.toList_eq_nil_iff.1 hlist) hne
    | cons x rest =>
      rw [String.toList_append, hlist, List.cons_append, List.head?_cons, List.head?_cons]
  unfold join
  by_cases hempty : dir = ""
  · rw [if_pos (Or.inr hempty)]
    exact ⟨[], rfl, by rw [hempty, h]; rfl, Or.inl ⟨hempty, rfl⟩⟩
  rw [if_neg (by simp [h, hempty])]
  by_cases hslash : endsInSlash dir = true
  · rw [if_pos hslash]
    unfold endsInSlash at hslash
    rw [beq_iff_eq, List.getLast?_eq_some_iff] at hslash
    obtain ⟨a, ha⟩ := hslash
    refine ⟨(Chars.split '/' a).map String.ofList, ?_, habs part hempty, Or.inr ⟨hempty, Or.inr ?_⟩⟩
    · rw [← happend a, ← String.ofList_toList (s := dir ++ part), String.toList_append,
        ha, List.append_assoc, List.singleton_append]
    · unfold Text.split
      rw [ha, Chars.split_append_sep, List.map_append]
      rfl
  · rw [if_neg hslash]
    refine ⟨Text.split dir '/', ?_, ?_, Or.inr ⟨hempty, Or.inl rfl⟩⟩
    · rw [show Text.split dir '/' = (Chars.split '/' dir.toList).map String.ofList from rfl,
        ← happend dir.toList, ← String.ofList_toList (s := dir ++ "/" ++ part),
        String.toList_append, String.toList_append, List.append_assoc]
      rfl
    · rw [String.append_assoc]
      exact habs _ hempty

theorem split_join (dir : String) {name : String} (h : '/' ∉ name.toList) :
    ∃ front, Text.split (join dir name) '/' = front ++ [name] ∧
      isAbsolute (join dir name) = isAbsolute dir ∧
      (dir = "" ∧ front = [] ∨ dir ≠ "" ∧
          (Text.split dir '/' = front ∨ Text.split dir '/' = front ++ [""])) := by
  have hjoin := split_join_relative dir (isAbsolute_plain h)
  rwa [split_plain h] at hjoin

/-- A path whose last piece is a name can be continued, whatever it starts with. -/
theorem isBase_split {p name : String} {front : List String}
    (hsplit : Text.split p '/' = front ++ [name]) (h : IsPlain name) : IsBase (Text.split p '/') :=
  ⟨fun _ hp => Text.not_mem_of_mem_split hp, front, name, hsplit, h.ne_empty, h.ne_current⟩

theorem isBase_join (dir : String) {name : String} (h : IsPlain name) :
    IsBase (Text.split (join dir name) '/') := by
  obtain ⟨front, hsplit, -⟩ := split_join dir h.slash
  exact isBase_split hsplit h

theorem foldl_join (h : IsBase base) {names : List String} (hn : ∀ p ∈ names, IsPlain p) :
    names.foldl join ("/".intercalate base) = "/".intercalate (base ++ names) := by
  induction names generalizing base with
  | nil => rw [List.foldl_nil, List.append_nil]
  | cons name names ih =>
    have hbase : IsBase (base ++ [name]) := h.append fun p hp => hn p (by simp at hp; simp [hp])
    rw [List.foldl_cons, join_plain h (hn name (by simp)).slash,
      ih hbase fun p hp => hn p (by simp [hp]), List.append_assoc, List.singleton_append]

/-! ## Parents -/

theorem dropIdle_base (absolute : Bool) (h : IsBase base) :
    dropIdle absolute (base.map String.toList) = base.map String.toList := by
  obtain ⟨front, name, rfl, hne, hdot⟩ := h.last
  have hlast : (name.toList == [] || name.toList == ['.']) = false := by
    rw [Bool.or_eq_false_iff]
    constructor
    · simpa using hne
    · rw [beq_eq_false_iff_ne]
      intro heq
      exact hdot (String.toList_inj.1 heq)
  have hrest : ((front ++ [name]).map String.toList).reverse.dropWhile
      (fun p => p == [] || p == ['.']) = ((front ++ [name]).map String.toList).reverse := by
    rw [List.map_append, List.map_singleton, List.reverse_append, List.reverse_singleton,
      List.singleton_append, List.dropWhile_cons, if_neg (by rw [hlast]; simp)]
  unfold dropIdle
  rw [hrest, List.reverse_reverse, if_neg (by simp)]

/-- The name leads nowhere else. -/
def isIdle (name : String) : Bool := name == "" || name == "."

theorem dropIdle_concat (absolute : Bool) {pieces : List (List Char)}
    (h : pieces ≠ []) {name : String} (hname : isIdle name = true) :
    dropIdle absolute (pieces ++ [name.toList]) = dropIdle absolute pieces := by
  have hhead : (pieces ++ [name.toList]).head? = pieces.head? := by
    cases pieces with
    | nil => exact absurd rfl h
    | cons piece pieces => rfl
  have hidle : (name.toList == [] || name.toList == ['.']) = true := by
    unfold isIdle at hname
    rw [Bool.or_eq_true, beq_iff_eq, beq_iff_eq] at hname
    rcases hname with rfl | rfl <;> rfl
  have hrest : (pieces ++ [name.toList]).reverse.dropWhile (fun p => p == [] || p == ['.']) =
      pieces.reverse.dropWhile fun p => p == [] || p == ['.'] := by
    rw [List.reverse_append, List.reverse_singleton, List.singleton_append,
      List.dropWhile_cons, if_pos hidle]
  unfold dropIdle
  rw [hhead, hrest]

theorem dropIdle_append_idle (absolute : Bool) {pieces : List (List Char)}
    (h : pieces ≠ []) {tail : List String} (htail : ∀ p ∈ tail, isIdle p = true) :
    dropIdle absolute (pieces ++ tail.map String.toList) = dropIdle absolute pieces := by
  induction tail using List.reverseRecOn with
  | nil => rw [List.map_nil, List.append_nil]
  | append_singleton tail p ih =>
    rw [List.map_append, List.map_singleton, ← List.append_assoc,
      dropIdle_concat absolute (by simp [h]) (htail p (by simp)),
      ih fun q hq => htail q (by simp [hq])]

theorem dropIdle_isPrefix (absolute : Bool) (pieces : List (List Char)) :
    dropIdle absolute pieces <+: pieces := by
  unfold dropIdle
  dsimp only
  split
  · next h =>
    obtain ⟨rest, rfl⟩ := List.head?_eq_some_iff.1 h.2.2
    exact List.prefix_append ['.'.toString.toList] rest
  · rw [← List.reverse_suffix, List.reverse_reverse]
    exact List.dropWhile_suffix _

theorem getLast?_dropIdle (absolute : Bool) (pieces : List (List Char)) :
    (dropIdle absolute pieces).getLast? ≠ some [] := by
  unfold dropIdle
  dsimp only
  split
  · simp
  · rw [List.getLast?_reverse]
    intro hhead
    have hnot := List.head?_dropWhile_not (fun p => p == [] || p == ['.']) pieces.reverse
    rw [hhead] at hnot
    exact absurd hnot (by simp)

theorem dropIdle_map (absolute : Bool) (pieces : List String) :
    ∃ kept, dropIdle absolute (pieces.map String.toList) = kept.map String.toList ∧
      kept <+: pieces := by
  have htake := List.prefix_iff_eq_take.1 (dropIdle_isPrefix absolute (pieces.map String.toList))
  rw [← List.map_take] at htake
  exact ⟨_, htake, List.take_prefix _ _⟩

/-- What is left of pieces, as a path. -/
def keptText (absolute : Bool) (pieces : List String) : String :=
  if absolute = true ∧ dropIdle absolute (pieces.map String.toList) = [] then "/"
  else .ofList (Chars.join '/' (dropIdle absolute (pieces.map String.toList)))

theorem parent?_eq {p : String} {kept : List String}
    (hkept : dropIdle (isAbsolute p) (Chars.split '/' p.toList) = kept.map String.toList)
    (hne : kept ≠ []) :
    parent? p = some (keptText (isAbsolute p) kept.dropLast) := by
  unfold parent? keptText
  rw [List.map_dropLast, ← hkept]
  dsimp only
  split
  · next hnil => exact absurd (List.map_eq_nil_iff.1 (hkept.symm.trans hnil)) hne
  · split <;> rfl

theorem keptText_base (absolute : Bool) (h : IsBase base) :
    keptText absolute base = "/".intercalate base := by
  have hne : base.map String.toList ≠ [] := by simpa using h.ne_nil
  unfold keptText
  rw [dropIdle_base absolute h, if_neg fun hc => hne hc.2, ← Text.toList_intercalate_slash,
    String.ofList_toList]

theorem parent?_of_split {p name : String} {front tail : List String}
    (hsplit : Text.split p '/' = front ++ name :: tail) (hname : IsPlain name)
    (htail : ∀ q ∈ tail, isIdle q = true) :
    parent? p = some (keptText (isAbsolute p) front) := by
  have hslash : ∀ q ∈ front ++ [name], '/' ∉ q.toList := by
    intro q hq
    refine Text.not_mem_of_mem_split (s := p) ?_
    rw [hsplit, List.append_cons]
    exact List.mem_append_left _ hq
  have hbase : IsBase (front ++ [name]) :=
    ⟨hslash, front, name, rfl, hname.ne_empty, hname.ne_current⟩
  have hkept : dropIdle (isAbsolute p) (Chars.split '/' p.toList) =
      (front ++ [name]).map String.toList := by
    rw [Text.split_chars, hsplit, List.append_cons, List.map_append,
      dropIdle_append_idle _ (by simp) htail, dropIdle_base _ hbase]
  rw [parent?_eq hkept (by simp), List.dropLast_concat]

/-! ## Paths above a path -/

/-- The path has the first ones of some pieces, or it is the root or empty. -/
def IsLeading (pieces : List String) (absolute : Bool) (q : String) : Prop :=
  q = "" ∨ q = "/" ∨ isAbsolute q = absolute ∧ Text.split q '/' <+: pieces

theorem IsLeading.mono {pieces more : List String} {absolute : Bool} {q : String}
    (h : IsLeading pieces absolute q) (hpre : pieces <+: more) : IsLeading more absolute q :=
  h.imp_right (Or.imp_right fun h => ⟨h.1, h.2.trans hpre⟩)

theorem eq_of_split {p q : String} (h : Text.split p '/' = Text.split q '/') : p = q := by
  rw [← Text.intercalate_split p, h, Text.intercalate_split]

theorem IsLeading.trans {p q : String} {pieces : List String} {absolute : Bool}
    (hq : IsLeading (Text.split p '/') (isAbsolute p) q) (hp : IsLeading pieces absolute p) :
    IsLeading pieces absolute q := by
  rcases hq with hq | hq | ⟨habs, hq⟩
  · exact Or.inl hq
  · exact Or.inr (Or.inl hq)
  have hne := Text.split_ne_nil q '/'
  rcases hp with rfl | rfl | ⟨habs', hp⟩
  · rcases List.prefix_cons_iff.1 hq with hnil | ⟨rest, hsplit, hrest⟩
    · exact absurd hnil hne
    · exact Or.inl (eq_of_split (by rw [hsplit, List.prefix_nil.1 hrest]; rfl))
  · rcases List.prefix_cons_iff.1 hq with hnil | ⟨rest, hsplit, hrest⟩
    · exact absurd hnil hne
    rcases List.prefix_cons_iff.1 hrest with hnil | ⟨rest', hrest', hnil⟩
    · exact Or.inl (eq_of_split (by rw [hsplit, hnil]; rfl))
    · exact Or.inr (Or.inl (eq_of_split (by rw [hsplit, hrest', List.prefix_nil.1 hnil]; rfl)))
  · exact Or.inr (Or.inr ⟨habs.trans habs', hq.trans hp⟩)

theorem isLeading_keptText {p : String} {pieces : List String}
    (hpre : pieces <+: Text.split p '/') :
    IsLeading pieces (isAbsolute p) (keptText (isAbsolute p) pieces) := by
  obtain ⟨kept, hkept, hprefix⟩ := dropIdle_map (isAbsolute p) pieces
  have htext : keptText (isAbsolute p) pieces =
      if isAbsolute p = true ∧ kept = [] then "/" else "/".intercalate kept := by
    unfold keptText
    rw [hkept, ← Text.toList_intercalate_slash, String.ofList_toList]
    simp only [List.map_eq_nil_iff]
  rw [htext]
  by_cases hnil : kept = []
  · subst hnil
    split
    · exact Or.inr (Or.inl rfl)
    · exact Or.inl rfl
  rw [if_neg fun h => hnil h.2]
  have hslash : ∀ q ∈ Text.split p '/', '/' ∉ q.toList := fun q hq => Text.not_mem_of_mem_split hq
  have hfront := hprefix.trans hpre
  have hkeptSlash : ∀ q ∈ kept, '/' ∉ q.toList := fun q hq => hslash q (hfront.subset hq)
  refine Or.inr (Or.inr ⟨?_, by rwa [Text.split_intercalate hnil hkeptSlash]⟩)
  -- The first piece is the same, and an empty one that is left is not the only one.
  have hp := isAbsolute_intercalate hslash
  rw [Text.intercalate_split] at hp
  have hhead : (Text.split p '/').head? = kept.head? := by
    obtain ⟨rest, hrest⟩ := hfront
    rw [← hrest, List.head?_append_of_ne_nil _ hnil]
  rw [hp, isAbsolute_intercalate hkeptSlash, decide_eq_decide, hhead]
  refine and_congr_right fun hempty =>
    ⟨fun hlength => Nat.lt_of_lt_of_le hlength hfront.length_le, fun _ => ?_⟩
  have hlast := getLast?_dropIdle (isAbsolute p) (pieces.map String.toList)
  rw [hkept] at hlast
  match kept, hempty with
  | [_], hempty => exact absurd rfl (Option.some.inj hempty ▸ hlast)
  | _ :: _ :: _, _ => simp

theorem isLeading_parent? {p q : String} (h : parent? p = some q) :
    IsLeading (Text.split p '/') (isAbsolute p) q := by
  obtain ⟨kept, hkept, hpre⟩ := dropIdle_map (isAbsolute p) (Text.split p '/')
  rw [← Text.split_chars] at hkept
  by_cases hnil : kept = []
  · unfold parent? at h
    simp [hkept, hnil] at h
  · have hfront := (List.dropLast_prefix kept).trans hpre
    rw [parent?_eq hkept hnil, Option.some.injEq] at h
    exact h ▸ (isLeading_keptText hfront).mono hfront

/-- **Above a path** are paths of its first pieces. -/
theorem isLeading_of_mem_ancestors {p q : String} (h : q ∈ ancestors p) :
    IsLeading (Text.split p '/') (isAbsolute p) q := by
  have habove : ∀ n p, q ∈ above n p → IsLeading (Text.split p '/') (isAbsolute p) q := by
    intro n
    induction n with
    | zero => exact fun p hq => absurd hq List.not_mem_nil
    | succ n ih =>
      intro p hq
      rw [above] at hq
      cases hparent : parent? p with
      | none => simp [hparent] at hq
      | some r =>
        rw [hparent] at hq
        rcases List.mem_cons.1 hq with rfl | hq
        · exact isLeading_parent? hparent
        · exact (ih r hq).trans (isLeading_parent? hparent)
  rcases List.mem_cons.1 h with rfl | h
  · exact Or.inr (Or.inr ⟨rfl, List.prefix_refl _⟩)
  · exact habove _ p h

/-! ## Components -/

theorem ofPiece?_plain {name : String} (h : IsPlain name) :
    ofPiece? name = some (.normal name) := by
  unfold ofPiece?
  rw [if_neg (by simp [h.ne_empty, h.ne_current]), if_neg h.ne_parent]

theorem filterMap_ofPiece? {names : List String} (hn : ∀ p ∈ names, IsPlain p) :
    names.filterMap ofPiece? = names.map Component.normal := by
  induction names with
  | nil => rfl
  | cons name names ih =>
    rw [List.filterMap_cons_some (ofPiece?_plain (hn name (List.mem_cons_self ..))),
      ih fun p hp => hn p (List.mem_cons_of_mem _ hp), List.map_cons]

theorem components_append (h : IsBase base) {names : List String} (hn : ∀ p ∈ names, IsPlain p) :
    components ("/".intercalate (base ++ names)) =
      components ("/".intercalate base) ++ names.map Component.normal := by
  have hhead : (base ++ names).head? = base.head? := by
    cases base with
    | nil => exact absurd rfl h.ne_nil
    | cons p base => rfl
  unfold components
  simp only [split_base h, split_base (h.append hn), isAbsolute_append h fun p hp =>
    (hn p hp).slash, hhead, List.filterMap_append, filterMap_ofPiece? hn, List.append_assoc]

/-- A joined name is one more component, whatever the directory is called. -/
theorem components_join (dir : String) {name : String} (h : IsPlain name) :
    components (join dir name) = components dir ++ [.normal name] := by
  obtain ⟨front, hsplit, habs, hfront⟩ := split_join dir h.slash
  have hpieces : (front ++ [name]).filterMap ofPiece? = front.filterMap ofPiece? ++
      [.normal name] := by
    rw [List.filterMap_append, List.filterMap_cons_some (ofPiece?_plain h), List.filterMap_nil]
  unfold components
  simp only [hsplit, habs, hpieces]
  rcases hfront with ⟨rfl, rfl⟩ | ⟨hne, hdir | hdir⟩
  · simp [h.ne_current, isAbsolute, Text.split, Chars.split, ofPiece?]
  · have hhead : (front ++ [name]).head? = front.head? := by
      rw [← hdir, List.head?_append_of_ne_nil _ (Text.split_ne_nil dir '/')]
    rw [hdir, hhead, List.append_assoc]
  · have hnil : front ≠ [] := by
      rintro rfl
      exact hne ((Text.intercalate_split dir).symm.trans (by rw [hdir]; rfl))
    have hhead : (front ++ [name]).head? = (front ++ [""]).head? := by
      rw [List.head?_append_of_ne_nil _ hnil, List.head?_append_of_ne_nil _ hnil]
    have hidle : (front ++ [""]).filterMap ofPiece? = front.filterMap ofPiece? := by
      rw [List.filterMap_append]
      exact List.append_nil _
    rw [hdir, hhead, hidle, List.append_assoc]

theorem components_intercalate {names : List String} (hn : ∀ p ∈ names, IsPlain p)
    (hne : names ≠ []) : components ("/".intercalate names) = names.map .normal := by
  have hslash : ∀ p ∈ names, '/' ∉ p.toList := fun p hp => (hn p hp).slash
  obtain ⟨name, rest, rfl⟩ := List.exists_cons_of_ne_nil hne
  have hfirst := hn name (List.mem_cons_self ..)
  have habsolute : isAbsolute ("/".intercalate (name :: rest)) = false := by
    rw [isAbsolute_intercalate hslash, decide_eq_false]
    rintro ⟨hhead, -⟩
    exact hfirst.ne_empty (Option.some.inj hhead)
  simp only [components, habsolute, Text.split_intercalate hne hslash,
    filterMap_ofPiece? hn, List.head?_cons, Option.some.injEq, hfirst.ne_current,
    Bool.false_eq_true, if_false, List.nil_append]

theorem relativeTo?_append (h : IsBase base) {names : List String} (hn : ∀ p ∈ names, IsPlain p) :
    relativeTo? ("/".intercalate base) ("/".intercalate (base ++ names)) =
      some (names.map Component.normal) := by
  unfold relativeTo?
  rw [components_append h hn]
  exact List.isPrefixOf?_eq_some_iff_append_eq.2 rfl

theorem fileName?_append (h : IsBase base) {name : String} (hname : IsPlain name) :
    fileName? ("/".intercalate (base ++ [name])) = some name := by
  unfold fileName?
  rw [components_append h (by simpa using hname), List.map_singleton, List.getLast?_concat]

theorem isPlain_of_mem_components {p name : String} (h : .normal name ∈ components p) :
    IsPlain name := by
  unfold components at h
  rcases List.mem_append.1 h with hstart | hpiece
  · split at hstart
    · simp at hstart
    · split at hstart <;> simp at hstart
  · obtain ⟨piece, hin, hpiece⟩ := List.mem_filterMap.1 hpiece
    unfold ofPiece? at hpiece
    split at hpiece
    · exact absurd hpiece (by simp)
    · next hidle =>
      split at hpiece
      · simp at hpiece
      · next hparent =>
        rw [Option.some.injEq, Component.normal.injEq] at hpiece
        subst hpiece
        rw [not_or] at hidle
        exact ⟨hidle.1, hidle.2, hparent, Text.not_mem_of_mem_split hin⟩

theorem isPlain_of_fileName? {p name : String} (h : fileName? p = some name) : IsPlain name := by
  unfold fileName? at h
  split at h
  · next last hlast =>
    rw [← Option.some.inj h]
    exact isPlain_of_mem_components (List.mem_of_getLast? hlast)
  · exact absurd h (by simp)

/-! ## What a file operation refuses -/

theorem endsInDots_append (h : IsBase base) {name : String} (hname : IsPlain name) :
    endsInDots ("/".intercalate (base ++ [name])) = false := by
  unfold endsInDots
  rw [split_base (h.append (by simpa using hname)), List.filter_append]
  simp [hname.ne_empty, hname.ne_current, hname.ne_parent]

end Path
end Rebadge
