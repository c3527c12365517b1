import Rebadge.Proofs.Disk.Scratch
import Rebadge.Proofs.Tree.Clear

/-!
# Paths that stay below a directory

A path that starts with certain others and whose further names never lead up above them is an inner
one. More names that stay below make another one (`Inner.join`), and above a path with names of its
own is an inner one (`Inward.parent`).
-/

namespace Rebadge

namespace Path

variable {base names : List String}

/-- Of names behind a base, those up to the last one that is not idle remain. -/
theorem dropIdle_append (absolute : Bool) (h : IsBase base) (hslash : ∀ p ∈ names, '/' ∉ p.toList) :
    ∃ front, front <+: names ∧ ((∃ p ∈ names, isIdle p = false) → front ≠ []) ∧
      dropIdle absolute ((base ++ names).map String.toList) =
        (base ++ front).map String.toList := by
  induction names using List.reverseRecOn with
  | nil =>
    exact ⟨[], List.prefix_refl _, by simp, by rw [List.append_nil, dropIdle_base absolute h]⟩
  | append_singleton names name ih =>
    by_cases hname : isIdle name = true
    · obtain ⟨front, hfront, hne, heq⟩ := ih fun p hp => hslash p (List.mem_append_left _ hp)
      refine ⟨front, hfront.trans (List.prefix_append _ _), ?_, ?_⟩
      · rintro ⟨p, hp, hidle⟩
        rcases List.mem_append.1 hp with hp | hp
        · exact hne ⟨p, hp, hidle⟩
        · rw [List.mem_singleton.1 hp, hname] at hidle
          exact absurd hidle (by simp)
      · rw [← List.append_assoc, List.map_append, List.map_singleton,
          dropIdle_concat absolute (by simp [h.ne_nil]) hname, heq]
    · refine ⟨names ++ [name],
        List.prefix_refl
        _, by simp, dropIdle_base absolute ⟨fun p hp => ?_, base ++ names, name, by simp, ?_⟩⟩
      · rcases List.mem_append.1 hp with hp | hp
        · exact h.slash p hp
        · exact hslash p hp
      · unfold isIdle at hname
        simpa using hname

end Path

namespace Disk

open Rebadge.Path (IsPlain IsBase isIdle)
open Rebadge.Tree (stays)

variable {bases : List (List String)} {names : List String} {path part : String}

/-- The path leads on from the location of certain others, by names that do not go up above it. -/
def Inward (bases : List (List String)) (names : List String) (path : String) : Prop :=
  ∃ base ∈ bases, (∀ p ∈ names, '/' ∉ p.toList) ∧ stays 0 names = true ∧
    path = "/".intercalate (base ++ names)

/-- Such a path, whatever the names. -/
def Inner (bases : List (List String)) (path : String) : Prop := ∃ names, Inward bases names path

theorem inner_of_mem {base : List String} (h : base ∈ bases) : Inner bases ("/".intercalate base) :=
  ⟨[], base, h, by simp, rfl, by rw [List.append_nil]⟩

theorem Inward.join (hbases : ∀ base ∈ bases, IsBase base) (h : Inward bases names path)
    (hrel : Path.isAbsolute part = false) (hstays : stays 0 (Text.split part '/') = true) :
    ∃ front, Inward bases (front ++ Text.split part '/') (Path.join path part) := by
  obtain ⟨base, hbase, hslash, hnames, rfl⟩ := h
  have hb := hbases base hbase
  have hjoined : ∀ front, "/".intercalate (base ++ front) ++ "/" ++ part =
      "/".intercalate (base ++ (front ++ Text.split part '/')) := by
    intro front
    rw [← List.append_assoc, Text.intercalate_append (by simp [hb.ne_nil]) (Text.split_ne_nil _ _),
      Text.intercalate_split]
  have hinner : ∀ {front}, (∀ p ∈ front, '/' ∉ p.toList) → stays 0 front = true →
      Inward bases (front ++ Text.split part '/')
      ("/".intercalate (base ++ (front ++ Text.split part '/'))) := by
    intro front hfront hstay
    refine ⟨base, hbase, fun p hp => ?_, Tree.stays_append hstay hstays, rfl⟩
    rcases List.mem_append.1 hp with hp | hp
    · exact hfront p hp
    · exact Text.not_mem_of_mem_split hp
  unfold Path.join
  rw [if_neg (by simp [hrel, Path.intercalate_append_ne_empty hb])]
  split
  · next hends =>
    -- The last of the names is empty.
    cases names using List.reverseRecOn with
    | nil =>
      rw [List.append_nil, Path.endsInSlash_base hb] at hends
      exact absurd hends (by simp)
    | append_singleton front name =>
      obtain rfl : name = "" := by
        refine Decidable.byContradiction fun hne => ?_
        have hlast := Path.getLast?_intercalate (slash_append hb hslash) (base ++ front)
          (List.append_assoc ..).symm hne
        unfold Path.endsInSlash at hends
        rw [hlast, beq_iff_eq] at hends
        exact hslash name (by simp) (List.mem_of_getLast? hends)
      rw [show "/".intercalate (base ++ (front ++ [""])) = "/".intercalate (base ++ front) ++ "/" by
        rw [← List.append_assoc, Text.intercalate_append (by simp [hb.ne_nil]) (by simp),
          String.intercalate_singleton, String.append_empty], hjoined front]
      exact ⟨front, hinner (fun p hp => hslash p (List.mem_append_left _ hp))
        (Tree.stays_left hnames)⟩
  · rw [hjoined names]
    exact ⟨names, hinner hslash hnames⟩

theorem Inner.join (hbases : ∀ base ∈ bases, IsBase base) (h : Inner bases path)
    (hrel : Path.isAbsolute part = false) (hstays : stays 0 (Text.split part '/') = true) :
    Inner bases (Path.join path part) := by
  obtain ⟨names, h⟩ := h
  obtain ⟨front, h⟩ := h.join hbases hrel hstays
  exact ⟨_, h⟩

theorem Inner.join_name (hbases : ∀ base ∈ bases, IsBase base) (h : Inner bases path)
    (hslash : '/' ∉ part.toList) (hpart : part ≠ "..") : Inner bases (Path.join path part) := by
  refine h.join hbases (Path.isAbsolute_plain hslash) ?_
  rw [Path.split_plain hslash]
  exact Tree.stays_of_not_mem (by simpa using hpart.symm)

theorem Inner.foldl_join (hbases : ∀ base ∈ bases, IsBase base) (h : Inner bases path)
    {parts : List String} (hparts : ∀ p ∈ parts, '/' ∉ p.toList ∧ p ≠ "..") :
    Inner bases (parts.foldl Path.join path) := by
  induction parts generalizing path with
  | nil => exact h
  | cons part rest ih =>
    obtain ⟨hpart, hrest⟩ := List.forall_mem_cons.1 hparts
    exact ih (h.join_name hbases hpart.1 hpart.2) hrest

/-- **Above** a path with names of its own is an inner one. -/
theorem Inward.parent (hbases : ∀ base ∈ bases, IsBase base) (h : Inward bases names path)
    (hidle : ∃ p ∈ names, isIdle p = false) : ∃ above, Path.parent? path = some above ∧
    Inner bases above := by
  obtain ⟨base, hbase, hslash, hnames, rfl⟩ := h
  have hb := hbases base hbase
  obtain ⟨kept, hkept, hne, heq⟩ := Path.dropIdle_append
    (Path.isAbsolute ("/".intercalate (base ++ names))) hb hslash
  have hsplit : Chars.split '/' ("/".intercalate (base ++ names)).toList =
      (base ++ names).map String.toList :=
    Text.split_chars_intercalate (by simp [hb.ne_nil]) (slash_append hb hslash)
  have hkeptSlash : ∀ p ∈ kept.dropLast, '/' ∉ p.toList := fun p hp =>
    hslash p (hkept.subset ((List.dropLast_sublist _).subset hp))
  obtain ⟨front, hfront, -, heq'⟩ := Path.dropIdle_append
    (Path.isAbsolute ("/".intercalate (base ++ names))) hb hkeptSlash
  refine ⟨"/".intercalate (base ++ front), ?_, front, base, hbase,
    fun p hp => hkeptSlash p (hfront.subset hp), ?_, rfl⟩
  · rw [Path.parent?_eq (hsplit ▸ heq) (by simp [hb.ne_nil]),
      List.dropLast_append_of_ne_nil (hne hidle)]
    unfold Path.keptText
    rw [heq', if_neg (by simp [hb.ne_nil]), ← Text.toList_intercalate_slash, String.ofList_toList]
  · obtain ⟨rest, rfl⟩ := hkept
    obtain ⟨more, hmore⟩ := hfront
    suffices h : Tree.stays 0 (front ++ (more ++ [kept.getLast (hne hidle)] ++ rest)) = true
      from Tree.stays_left h
    rwa [List.append_assoc, ← List.append_assoc, hmore, ← List.append_assoc,
      List.dropLast_concat_getLast]

end Disk
end Rebadge
