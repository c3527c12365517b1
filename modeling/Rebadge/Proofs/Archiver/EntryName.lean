import Rebadge.Archiver.Zip
import Rebadge.Proofs.Tree.Clear

/-!
# Names of entries

The name of an entry is the path that the entry is extracted at. A plain one leads down along names,
so that it is given by these names and by whether it ends with a slash. An enclosed one never leads
up above its start (`stays_of_isEnclosed`).
-/

namespace Rebadge.Archiver.Native

open Rebadge.Path (IsPlain)
open Rebadge.Tree (stays)

/-- The names along the path of an entry, without the slash at the end of a directory. -/
def entryPath (name : String) : List String :=
  if Path.endsInSlash name then (Text.split name '/').dropLast else Text.split name '/'

/-- The directories among them. -/
def entryDirs (name : String) : List String :=
  if Path.endsInSlash name then entryPath name else (entryPath name).dropLast

/-- What is behind the names of the path: nothing, or nothing but a slash. -/
def entryTail (name : String) : List String :=
  if Path.endsInSlash name then [""] else []

/-- The components of the path are neither empty nor made of dots, and it has neither a backslash
nor a NUL. -/
structure PlainName (name : String) : Prop where
  plain : ∀ p ∈ entryPath name, p ≠ "" ∧ p ≠ "." ∧ p ≠ ".."
  backslash : '\\' ∉ name.toList
  nul : '\x00' ∉ name.toList

/-- No file of the names is also a directory of another one. -/
def NoConflict (names : List String) : Prop :=
  ∀ a ∈ names, Path.endsInSlash a = false → ∀ b ∈ names, b ≠ a → ¬ entryPath a <+: entryPath b

instance (name : String) : Decidable (PlainName name) :=
  decidable_of_iff ((∀ p ∈ entryPath name, p ≠ "" ∧ p ≠ "." ∧ p ≠ "..") ∧ '\\' ∉ name.toList ∧
    '\x00' ∉ name.toList) ⟨fun h => ⟨h.1, h.2.1, h.2.2⟩, fun h => ⟨h.plain, h.backslash, h.nul⟩⟩

instance (names : List String) : Decidable (NoConflict names) := by
  unfold NoConflict
  infer_instance

variable {name : String}

theorem split_of_slash (h : Path.endsInSlash name = true) :
    Text.split name '/' = entryPath name ++ [""] := by
  unfold entryPath
  rw [if_pos h]
  obtain ⟨front, hfront⟩ : ∃ front, name.toList = front ++ ['/'] := by
    unfold Path.endsInSlash at h
    rw [beq_iff_eq, List.getLast?_eq_some_iff] at h
    exact h
  unfold Text.split
  rw [hfront, Chars.split_append_sep]
  simp [Chars.split]

theorem split_of_not_slash (h : Path.endsInSlash name = false) :
    Text.split name '/' = entryPath name := by
  unfold entryPath
  rw [if_neg (by simp [h])]

theorem entryTail_slashes (name : String) : ∀ p ∈ entryTail name, p = "" := by
  unfold entryTail
  split <;> simp

theorem split_eq (name : String) : Text.split name '/' = entryPath name ++ entryTail name := by
  unfold entryTail
  cases h : Path.endsInSlash name with
  | true => rw [split_of_slash h, if_pos rfl]
  | false => rw [split_of_not_slash h, if_neg (by simp), List.append_nil]

/-- The path and the slash give the name. -/
theorem eq_of_entryPath {name' : String} (hpath : entryPath name = entryPath name')
    (hslash : Path.endsInSlash name = Path.endsInSlash name') : name = name' := by
  rw [← Text.intercalate_split name, ← Text.intercalate_split name', split_eq, split_eq name',
    hpath, entryTail, hslash, entryTail]

theorem entryPath_ne_nil (name : String) : entryPath name ≠ [] := by
  cases h : Path.endsInSlash name with
  | false =>
    rw [← split_of_not_slash h]
    exact Text.split_ne_nil name '/'
  | true =>
    intro hnil
    have hsplit := split_of_slash h
    rw [hnil, List.nil_append] at hsplit
    have hname := Text.intercalate_split name
    rw [hsplit, String.intercalate_singleton] at hname
    rw [← hname] at h
    exact absurd h (by decide)

theorem entryPath_intercalate {names : List String} (hn : ∀ p ∈ names, IsPlain p) (hne : names ≠ [])
    (h : name = "/".intercalate names ∨ name = "/".intercalate names ++ "/") :
    entryPath name = names := by
  have hbase := Path.isBase_of_plain hn hne
  rcases h with rfl | rfl
  · rw [← split_of_not_slash (Path.endsInSlash_base hbase), Path.split_base hbase]
  · have hslash := Path.endsInSlash_append_slash ("/".intercalate names)
    have hname : "/".intercalate names ++ "/" = "/".intercalate (names ++ [""]) := by
      rw [Text.intercalate_append hne (by simp), String.intercalate_singleton, String.append_empty]
    have hsplit := split_of_slash hslash
    rw [hname, Text.split_intercalate (by simp)] at hsplit
    · rw [hname]
      exact (List.append_inj' hsplit rfl).1.symm
    · intro p hp
      rcases List.mem_append.1 hp with hp | hp
      · exact hbase.slash p hp
      · rw [List.mem_singleton.1 hp]
        simp

theorem slash_of_mem_entryPath {p : String} (h : p ∈ entryPath name) : '/' ∉ p.toList := by
  refine Text.not_mem_of_mem_split (s := name) ?_
  rw [split_eq]
  exact List.mem_append_left _ h

theorem PlainName.isPlain (h : PlainName name) : ∀ p ∈ entryPath name, IsPlain p :=
  fun p hp => ⟨(h.plain p hp).1, (h.plain p hp).2.1, (h.plain p hp).2.2, slash_of_mem_entryPath hp⟩

theorem entryDirs_isPrefix (name : String) : entryDirs name <+: entryPath name := by
  unfold entryDirs
  split
  · exact List.prefix_refl _
  · exact List.dropLast_prefix _

theorem entryDirs_of_slash (h : Path.endsInSlash name = true) :
    entryDirs name = entryPath name := by
  unfold entryDirs
  rw [if_pos h]

theorem entryDirs_of_not_slash (h : Path.endsInSlash name = false) :
    ∃ last, entryPath name = entryDirs name ++ [last] := by
  unfold entryDirs
  rw [if_neg (by simp [h])]
  exact ⟨_, (List.dropLast_concat_getLast (entryPath_ne_nil name)).symm⟩

/-- The way to a file is no longer than its path. -/
theorem not_isPrefix_entryDirs (hslash : Path.endsInSlash name = false) :
    ¬ entryPath name <+: entryDirs name := by
  intro hpre
  obtain ⟨last, hpath⟩ := entryDirs_of_not_slash hslash
  have hlength := hpre.length_le
  rw [hpath, List.length_append, List.length_singleton] at hlength
  omega

/-- Without backslashes, directories are the names that end with a slash. -/
theorem isDirectoryName_eq (h : '\\' ∉ name.toList) :
    isDirectoryName name = Path.endsInSlash name := by
  unfold isDirectoryName Path.endsInSlash
  cases hlast : name.toList.getLast? with
  | none => rfl
  | some c =>
    have hc : c ≠ '\\' := by
      rintro rfl
      exact h (List.mem_of_getLast? hlast)
    simp [hc]

theorem depth?_normal (n : Nat) (names : List String) :
    depth? n (names.map Path.Component.normal) = some (n + names.length) := by
  induction names generalizing n with
  | nil => cases n <;> rfl
  | cons name names ih =>
    rw [List.map_cons, List.length_cons]
    cases n <;> rw [depth?, ih] <;> congr 1 <;> omega

theorem head_split_plain (h : ∀ p ∈ entryPath name, IsPlain p) :
    ∃ p, (Text.split name '/').head? = some p ∧ IsPlain p := by
  rw [split_eq]
  cases hpath : entryPath name with
  | nil => exact absurd hpath (entryPath_ne_nil name)
  | cons p rest => exact ⟨p, rfl, h p (by simp [hpath])⟩

theorem not_isAbsolute_of_plain (h : ∀ p ∈ entryPath name, IsPlain p) :
    Path.isAbsolute name = false := by
  obtain ⟨p, hhead, hp⟩ := head_split_plain h
  refine Path.not_isAbsolute_of_head ?_
  simpa [hhead] using hp.ne_empty

theorem components_of_plain (h : ∀ p ∈ entryPath name, IsPlain p) :
    Path.components name = (entryPath name).map Path.Component.normal := by
  obtain ⟨p, hhead, hp⟩ := head_split_plain h
  have hdot : (Text.split name '/').head? ≠ some "." := by simpa [hhead] using hp.ne_current
  unfold Path.components
  simp only [not_isAbsolute_of_plain h, Bool.false_eq_true, if_false, if_neg hdot, List.nil_append]
  rw [split_eq, List.filterMap_append, Path.filterMap_ofPiece? h]
  cases hslash : Path.endsInSlash name <;> simp [entryTail, hslash, Path.ofPiece?]

theorem PlainName.isEnclosed (h : PlainName name) : isEnclosed name = true := by
  have hnul : Text.hasChar name '\x00' = false := by
    unfold Text.hasChar
    rw [List.contains_eq_mem, decide_eq_false_iff_not]
    exact h.nul
  unfold Native.isEnclosed
  rw [hnul, components_of_plain h.isPlain, depth?_normal]
  rfl

theorem stays_of_depth? {n : Nat} {pieces : List String}
    (h : (depth? n (pieces.filterMap Path.ofPiece?)).isSome = true) : stays n pieces = true := by
  induction pieces generalizing n with
  | nil => rfl
  | cons p rest ih =>
    rw [List.filterMap_cons] at h
    rw [stays]
    unfold Path.ofPiece? at h
    by_cases h1 : p = "" ∨ p = "."
    · rw [if_pos h1] at h ⊢
      exact ih h
    rw [if_neg h1] at h ⊢
    by_cases h2 : p = ".."
    · rw [if_pos h2] at h ⊢
      cases n with
      | zero => exact absurd h (by simp [depth?])
      | succ n =>
        rw [Bool.and_eq_true, decide_eq_true_eq]
        exact ⟨Nat.succ_pos n, ih h⟩
    · rw [if_neg h2] at h ⊢
      exact ih h

/-- The names of an enclosed path never lead up above its start. -/
theorem stays_of_isEnclosed {name : String} (h : isEnclosed name = true) :
    Path.isAbsolute name = false ∧ stays 0 (Text.split name '/') = true := by
  unfold isEnclosed at h
  rw [Bool.and_eq_true] at h
  replace h := h.2
  change (depth? 0 ((if Path.isAbsolute name = true then [.root]
    else if (Text.split name '/').head? = some "." then [.current] else []) ++
      (Text.split name '/').filterMap Path.ofPiece?)).isSome = true at h
  by_cases habs : Path.isAbsolute name = true
  · rw [if_pos habs] at h
    exact absurd h (by simp [depth?])
  · refine ⟨by simpa using habs, stays_of_depth? ?_⟩
    rw [if_neg habs] at h
    split at h
    · exact h
    · exact h

theorem join_entry {base : List String} (hbase : Path.IsBase base) (h : PlainName name) :
    Path.join ("/".intercalate base) name =
      "/".intercalate (base ++ (entryPath name ++ entryTail name)) := by
  rw [Path.join_eq hbase (not_isAbsolute_of_plain h.isPlain), split_eq]

end Rebadge.Archiver.Native
