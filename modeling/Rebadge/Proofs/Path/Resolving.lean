import Rebadge.Proofs.Tree.Clear

/-!
# Paths resolved by their text

A path is resolved without a look at any disk: `.` stays, `..` drops the name before it, and above
the root there is nothing. A joined relative path is resolved from where the directory leads to
(`lead_join`), piece by piece.

While the pieces do not go up above the directory, they only put names on it (`leadAlong_stays`).
Once they do, the last name of the directory is gone, and nothing but a piece of that name brings it
back (`count_leadAlong_lt`). So pieces that stay and come to rest further down lead below every
directory, and other pieces lead below none whose last name is not among them
(`isBelow_of_descends`, `descends_of_isBelow`).
-/

namespace Rebadge.Path

open Rebadge.Tree (stays)

variable {place : List Component} {pieces : List String} {piece name root p : String}

/-! ## Resolution -/

/-- One component further on from a place, whose last component stands first. -/
def step : List Component → Component → List Component
  | _, .root => [.root]
  | place, .current => place
  | place, .normal name => .normal name :: place
  | .normal _ :: place, .parent => place
  | .root :: place, .parent => .root :: place
  | place, .parent => .parent :: place

/-- The place that a path leads to from another one. -/
def lead (place : List Component) (p : String) : List Component :=
  (components p).foldl step place

/-- The components of a path after its `.` and `..` are resolved. Those `..` that go above the start
of a relative path stay in front. -/
def resolve (p : String) : List Component :=
  (lead [] p).reverse

/-- The path lies strictly below the directory: it resolves to the components of the directory and
names behind them. -/
def IsBelow (dir p : String) : Prop :=
  ∃ names : List String, names ≠ [] ∧ resolve p = resolve dir ++ names.map .normal

/-- The name of a component that is one. -/
def Component.name? : Component → Option String
  | .normal name => some name
  | _ => none

theorem filterMap_name? (names : List String) :
    (names.map Component.normal).filterMap Component.name? = names := by
  rw [List.filterMap_map]
  exact List.filterMap_some

instance (dir p : String) : Decidable (IsBelow dir p) :=
  decidable_of_iff
    (((resolve p).drop (resolve dir).length).filterMap Component.name? ≠ [] ∧
      resolve p = resolve dir ++
      (((resolve p).drop (resolve dir).length).filterMap Component.name?).map .normal)
    ⟨fun h => ⟨_, h⟩, by
      rintro ⟨names, hne, heq⟩
      have hnames : ((resolve p).drop (resolve dir).length).filterMap Component.name? = names := by
        rw [heq, List.drop_left, filterMap_name?]
      rw [hnames]
      exact ⟨hne, heq⟩⟩

example : resolve "/a/./b/../../c" = [.root, .normal "c"] ∧
  resolve "a/../../b" = [.parent, .normal "b"] := by decide

/-! ## Piece by piece -/

/-- The place that the pieces of a relative path lead to. -/
def leadAlong (place : List Component) (pieces : List String) : List Component :=
  (pieces.filterMap ofPiece?).foldl step place

theorem leadAlong_append (place : List Component) (ps qs : List String) :
    leadAlong place (ps ++ qs) = leadAlong (leadAlong place ps) qs := by
  unfold leadAlong
  rw [List.filterMap_append, List.foldl_append]

theorem leadAlong_idle (h : piece = "" ∨ piece = ".") (place : List Component)
    (rest : List String) : leadAlong place (piece :: rest) = leadAlong place rest := by
  unfold leadAlong
  rw [List.filterMap_cons_none (by rw [ofPiece?, if_pos h])]

theorem leadAlong_parent (place : List Component) (rest : List String) :
    leadAlong place (".." :: rest) = leadAlong (step place .parent) rest := rfl

theorem leadAlong_name (hidle : ¬ (piece = "" ∨ piece = ".")) (hparent : piece ≠ "..")
    (place : List Component) (rest : List String) :
    leadAlong place (piece :: rest) = leadAlong (.normal piece :: place) rest := by
  unfold leadAlong
  rw [List.filterMap_cons_some (by rw [ofPiece?, if_neg hidle, if_neg hparent])]
  rfl

theorem lead_eq (place : List Component) (p : String) :
    lead place p = leadAlong (if isAbsolute p then [.root] else place) (Text.split p '/') := by
  unfold lead leadAlong components
  rw [List.foldl_append]
  by_cases habs : isAbsolute p = true
  · rw [if_pos habs, if_pos habs]
    rfl
  · rw [if_neg habs, if_neg habs]
    split <;> rfl

theorem lead_join (place : List Component) (dir : String) {part : String}
    (h : isAbsolute part = false) :
    lead place (join dir part) = leadAlong (lead place dir) (Text.split part '/') := by
  obtain ⟨front, hsplit, habs, hfront⟩ := split_join_relative dir h
  have hdir : leadAlong (if isAbsolute dir then [.root] else place) (Text.split dir '/') =
      leadAlong (if isAbsolute dir then [.root] else place) front := by
    rcases hfront with ⟨rfl, rfl⟩ | ⟨-, hdir | hdir⟩
    · rfl
    · rw [hdir]
    · rw [hdir, leadAlong_append]
      rfl
  rw [lead_eq, lead_eq, habs, hsplit, leadAlong_append, hdir]

theorem join_absolute (dir : String) {part : String} (h : isAbsolute part = true) :
    join dir part = part :=
  if_pos (Or.inl h)

/-! ## Pieces that stay, and others -/

/-- The piece is a name. -/
def isName (piece : String) : Bool := !isIdle piece && piece != ".."

theorem isName_iff : isName piece = true ↔ ¬ (piece = "" ∨ piece = ".") ∧ piece ≠ ".." := by
  simp [isName, isIdle]

/-- Pieces that stay put names on a place, as many as they hold beyond their `..`, and change
nothing else about it. -/
theorem leadAlong_stays (own : List String) (h : stays own.length pieces = true) :
    ∃ names : List String, names.length + pieces.count ".." = own.length + pieces.countP isName ∧
      ∀ place, leadAlong (own.map .normal ++ place) pieces = names.map .normal ++ place := by
  induction pieces generalizing own with
  | nil => exact ⟨own, rfl, fun _ => rfl⟩
  | cons piece rest ih =>
    rw [stays] at h
    by_cases hidle : piece = "" ∨ piece = "."
    · rw [if_pos hidle] at h
      obtain ⟨names, hcount, hlead⟩ := ih own h
      refine ⟨names, ?_, fun place => (leadAlong_idle hidle _ rest).trans (hlead place)⟩
      have hparent : piece ≠ ".." := by
        rintro rfl
        exact absurd hidle (by decide)
      rwa [List.count_cons_of_ne hparent, List.countP_cons_of_neg fun hname =>
        (isName_iff.1 hname).1 hidle]
    rw [if_neg hidle] at h
    by_cases hparent : piece = ".."
    · subst hparent
      rw [if_pos rfl, Bool.and_eq_true] at h
      cases own with
      | nil => exact absurd h.1 (by simp)
      | cons last own =>
        obtain ⟨names, hcount, hlead⟩ := ih own h.2
        refine ⟨names, ?_, fun place => (leadAlong_parent _ rest).trans (hlead place)⟩
        rw [List.count_cons_self, List.countP_cons_of_neg (by decide), List.length_cons]
        omega
    · rw [if_neg hparent] at h
      obtain ⟨names, hcount, hlead⟩ := ih (piece :: own) h
      refine ⟨names, ?_, fun place => (leadAlong_name hidle hparent _ rest).trans (hlead place)⟩
      rw [List.count_cons_of_ne hparent, List.countP_cons_of_pos (isName_iff.2 ⟨hidle, hparent⟩),
        hcount, List.length_cons]
      omega

/-- No step but the one to a name brings it to a place. -/
theorem count_step_le (place : List Component) {c : Component} (hc : c ≠ .normal name) :
    (step place c).count (.normal name) ≤ place.count (.normal name) := by
  unfold step
  split
  · simp
  · exact Nat.le_refl _
  · exact Nat.le_of_eq (List.count_cons_of_ne hc)
  · exact List.count_le_count_cons
  · exact Nat.le_refl _
  · exact Nat.le_of_eq (List.count_cons_of_ne (by simp))

theorem count_leadAlong_le (h : name ∉ pieces) (place : List Component) :
    (leadAlong place pieces).count (.normal name) ≤ place.count (.normal name) := by
  induction pieces generalizing place with
  | nil => exact Nat.le_refl _
  | cons piece rest ih =>
    rw [List.mem_cons, not_or] at h
    by_cases hidle : piece = "" ∨ piece = "."
    · rw [leadAlong_idle hidle]
      exact ih h.2 place
    by_cases hparent : piece = ".."
    · subst hparent
      rw [leadAlong_parent]
      exact Nat.le_trans (ih h.2 _) (count_step_le place (by simp))
    · have hne : Component.normal piece ≠ .normal name :=
        fun heq => h.1 (Component.normal.inj heq).symm
      rw [leadAlong_name hidle hparent]
      exact Nat.le_trans (ih h.2 _) (count_step_le place hne)

/-- Pieces that do not stay take off the name that a place ends in. -/
theorem count_leadAlong_lt (own : List String) (h : stays own.length pieces = false)
    (hname : name ∉ pieces) (place : List Component) :
    (leadAlong (own.map .normal ++ .normal name :: place) pieces).count (.normal name) <
      (Component.normal name :: place).count (.normal name) := by
  induction pieces generalizing own with
  | nil => exact absurd h (by simp [stays])
  | cons piece rest ih =>
    rw [List.mem_cons, not_or] at hname
    rw [stays] at h
    by_cases hidle : piece = "" ∨ piece = "."
    · rw [if_pos hidle] at h
      rw [leadAlong_idle hidle]
      exact ih own h hname.2
    rw [if_neg hidle] at h
    by_cases hparent : piece = ".."
    · subst hparent
      rw [if_pos rfl] at h
      rw [leadAlong_parent]
      cases own with
      | nil =>
        rw [List.count_cons_self]
        exact Nat.lt_succ_of_le (count_leadAlong_le hname.2 place)
      | cons last own =>
        have hrest : stays own.length rest = false := by simpa using h
        exact ih own hrest hname.2
    · rw [if_neg hparent] at h
      rw [leadAlong_name hidle hparent]
      exact ih (piece :: own) h hname.2

/-! ## Below a directory -/

/-- The pieces lead below the place that they start from: they never go up above it, and further
down than up. -/
structure Descends (pieces : List String) : Prop where
  stays : stays 0 pieces = true
  deeper : pieces.count ".." < pieces.countP isName

instance (pieces : List String) : Decidable (Descends pieces) :=
  decidable_of_iff (Tree.stays 0 pieces = true ∧ pieces.count ".." < pieces.countP isName)
    ⟨fun h => ⟨h.1, h.2⟩, fun h => ⟨h.stays, h.deeper⟩⟩

theorem descends_of_not_mem (hparent : ".." ∉ pieces)
    (hname : ∃ piece ∈ pieces, isName piece = true) : Descends pieces where
  stays := Tree.stays_of_not_mem hparent
  deeper := by
    rw [List.count_eq_zero.2 hparent]
    exact List.countP_pos_iff.2 hname

theorem resolve_of_lead {names : List String} (h : lead [] p = names.map .normal ++ lead [] root) :
    resolve p = resolve root ++ names.reverse.map .normal := by
  unfold resolve
  rw [h, List.reverse_append, List.map_reverse]

theorem lead_of_isBelow (h : IsBelow root p) :
    ∃ names : List String, names ≠ [] ∧ lead [] p = names.map .normal ++ lead [] root := by
  obtain ⟨names, hne, heq⟩ := h
  refine ⟨names.reverse, by simpa using hne, ?_⟩
  have hback := congrArg List.reverse heq
  unfold resolve at hback
  rwa [List.reverse_append, List.reverse_reverse, List.reverse_reverse, ← List.map_reverse] at hback

theorem isBelow_of_descends (h : Descends pieces)
    (hlead : lead [] p = leadAlong (lead [] root) pieces) : IsBelow root p := by
  obtain ⟨names, hcount, hnames⟩ := leadAlong_stays [] h.stays
  have hdeeper := h.deeper
  refine ⟨names.reverse, ?_, resolve_of_lead (hlead.trans (hnames _))⟩
  rintro hnil
  rw [List.reverse_eq_nil_iff.1 hnil] at hcount
  simp only [List.length_nil] at hcount
  omega

theorem lead_of_getLast? (h : (resolve root).getLast? = some (.normal name)) :
    ∃ place, lead [] root = .normal name :: place := by
  unfold resolve at h
  rw [List.getLast?_reverse] at h
  exact List.head?_eq_some_iff.1 h

theorem count_le_of_isBelow (h : IsBelow root p) (c : Component) :
    (lead [] root).count c ≤ (lead [] p).count c := by
  obtain ⟨names, -, heq⟩ := lead_of_isBelow h
  rw [heq, List.count_append]
  exact Nat.le_add_left _ _

/-- Only pieces that descend lead below a directory whose last name is not among them. -/
theorem descends_of_isBelow (h : IsBelow root p)
    (hlead : lead [] p = leadAlong (lead [] root) pieces)
    (hlast : (resolve root).getLast? = some (.normal name)) (hname : name ∉ pieces) :
    Descends pieces := by
  obtain ⟨place, hplace⟩ := lead_of_getLast? hlast
  have hstays : Tree.stays 0 pieces = true := by
    rw [← Bool.not_eq_false]
    intro hnot
    have hkept := count_le_of_isBelow h (.normal name)
    have hlost := count_leadAlong_lt [] hnot hname place
    rw [List.map_nil, List.nil_append, ← hplace, ← hlead] at hlost
    omega
  refine ⟨hstays, ?_⟩
  obtain ⟨names, hcount, hnames⟩ := leadAlong_stays [] hstays
  obtain ⟨below, hne, hbelow⟩ := lead_of_isBelow h
  have hown : leadAlong (lead [] root) pieces = names.map .normal ++ lead [] root :=
    hnames (lead [] root)
  rw [hlead, hown, List.append_cancel_right_eq] at hbelow
  have hlength : 0 < names.length := by
    have hmap := congrArg List.length hbelow
    rw [List.length_map, List.length_map] at hmap
    rw [hmap]
    exact List.length_pos_of_ne_nil hne
  rw [List.length_nil, Nat.zero_add] at hcount
  omega

/-- An absolute path leads below no directory whose last name is not among its pieces. -/
theorem not_isBelow_of_absolute (h : isAbsolute p = true)
    (hlast : (resolve root).getLast? = some (.normal name)) (hname : name ∉ Text.split p '/') :
    ¬ IsBelow root p := by
  intro hbelow
  obtain ⟨place, hplace⟩ := lead_of_getLast? hlast
  have hkept := count_le_of_isBelow hbelow (.normal name)
  have hnone := count_leadAlong_le hname [.root]
  rw [hplace, List.count_cons_self, lead_eq, if_pos h] at hkept
  rw [List.count_cons_of_ne (by simp), List.count_nil] at hnone
  omega

/-! ## A name like no other -/

/-- Some name is none of the pieces: one that is longer than all of them together. -/
theorem exists_isPlain_not_mem (pieces : List String) : ∃ name, IsPlain name ∧ name ∉ pieces := by
  let name : String := .ofList (List.replicate ((pieces.map String.toList).flatten.length + 1) 'a')
  have hname : name.toList = List.replicate ((pieces.map String.toList).flatten.length + 1) 'a' :=
    String.toList_ofList
  have hchars : ∀ {c : Char}, c ∈ name.toList → c = 'a' :=
    fun hc => List.eq_of_mem_replicate (hname ▸ hc)
  refine ⟨name, ⟨?empty, ?current, ?parent, fun hslash => absurd (hchars hslash) (by decide)⟩,
    fun hmem => ?longer⟩
  case empty =>
    intro hempty
    rw [hempty] at hname
    exact absurd hname (by simp)
  case current => exact fun hdot => absurd (hchars (c := '.') (by simp [hdot])) (by decide)
  case parent => exact fun hdots => absurd (hchars (c := '.') (by simp [hdots])) (by decide)
  case longer =>
    have hle :=
      (List.sublist_flatten_of_mem (List.mem_map_of_mem (f := String.toList) hmem)).length_le
    rw [hname, List.length_replicate] at hle
    omega

theorem resolve_plain (h : IsPlain name) : resolve name = [.normal name] := by
  have hcomponents : components ("/".intercalate [name]) = [.normal name] :=
    components_intercalate (by simpa using h) (by simp)
  rw [String.intercalate_singleton] at hcomponents
  unfold resolve lead
  rw [hcomponents]
  rfl

end Rebadge.Path
