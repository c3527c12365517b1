import Rebadge.Proofs.Text.Lines
import Rebadge.Proofs.Version.Repeated

/-!
# What keeps local versions apart

A character that is no part of any local version keeps the texts beside it apart: what is cut before
it and what is cut behind it do not depend on each other. Word characters, dots and pluses are the
characters of local versions, and each of them can join what stands beside it to one that neither
side holds. So exactly the other characters separate (`stripLocalVersion_append_iff`), and the
pieces between them are cut one by one (`split_stripLocalVersion`): the dashes of a file name, the
slashes of a path, the commas of a line and the ends of lines.
-/

namespace Rebadge.Version

open Text (isWordChar)

/-- The character is no part of a local version. -/
structure IsSeparator (s : Char) : Prop where
  word : isWordChar s = false
  dot : s ≠ '.'
  plus : s ≠ '+'

instance (s : Char) : Decidable (IsSeparator s) :=
  decidable_of_iff (isWordChar s = false ∧ s ≠ '.' ∧ s ≠ '+')
    ⟨fun h => ⟨h.1, h.2.1, h.2.2⟩, fun h => ⟨h.word, h.dot, h.plus⟩⟩

variable {s : Char}

/-! ## Characters that keep apart -/

theorem worksBeside_stripFrom (h : IsSeparator s) : Chars.WorksBeside s (stripFrom 0) :=
  ⟨stripFrom_append_separator h.word h.dot h.plus,
    fun _ hpiece hmem => hpiece (mem_of_mem_stripFrom hmem)⟩

theorem split_stripLocalVersion (h : IsSeparator s) (text : String) :
    Text.split (stripLocalVersion text) s = (Text.split text s).map stripLocalVersion := by
  unfold Text.split
  rw [toList_stripLocalVersion, (worksBeside_stripFrom h).split, List.map_map, List.map_map]
  refine List.map_congr_left fun piece _ => ?_
  rw [Function.comp_apply, Function.comp_apply, stripLocalVersion, String.toList_ofList]

/-! ## Characters that join -/

theorem stripFrom_local {version label : List Char} (hversion : IsDev version)
    (hlabel : IsWord label) : stripFrom 0 (version ++ '+' :: label) = version := by
  have hstarts : StartsLabel label := by
    have h := hlabel.startsLabel []
    rwa [List.append_nil] at h
  rw [(stripFrom_label hversion.plus ⟨[], version, hversion, rfl⟩ hstarts).1,
    List.dropWhile_eq_nil_iff.2 hlabel.word, stripFrom_nil, List.append_nil]

theorem exists_isDev : ∃ version, IsDev version := by
  have hread : devVersion? "0.0.0.dev0".toList = some ("0.0.0.dev0".toList, []) := by decide
  exact ⟨_, (devVersion?_eq_nil.1 hread).1⟩

theorem exists_stripFrom_word (hword : isWordChar s = true) :
    ∃ a : List Char, stripFrom 0 (a ++ [s]) ≠ stripFrom 0 a ++ [s] := by
  obtain ⟨version, hversion⟩ := exists_isDev
  refine ⟨version ++ '+' :: ['0'], ?_⟩
  have hlong : IsWord ['0', s] := ⟨by simp, by simp [hword]; decide⟩
  have hshort : IsWord ['0'] := ⟨by simp, by simp; decide⟩
  rw [List.append_assoc, List.cons_append, List.singleton_append, stripFrom_local hversion hlong,
    stripFrom_local hversion hshort]
  intro heq
  have hlength := congrArg List.length heq
  simp at hlength

/-- **What separates.** A character keeps all texts beside it apart exactly if it is no word
character, no dot and no plus. -/
theorem stripLocalVersion_append_iff (s : Char) :
    (∀ a b : String, stripLocalVersion (a ++ s.toString ++ b) = stripLocalVersion a ++ s.toString ++
      stripLocalVersion b) ↔
      IsSeparator s := by
  refine ⟨fun hapart => ⟨?word, ?dot, ?plus⟩,
    fun h => stripLocalVersion_append_separator h.word h.dot h.plus⟩
  case word =>
    rw [← Bool.not_eq_true]
    intro hword
    obtain ⟨a, ha⟩ := exists_stripFrom_word hword
    have heq := String.toList_inj.2 (hapart (.ofList a) "")
    simp only [toList_stripLocalVersion, String.toList_append, String.toList_ofList, Char.toString,
      String.toList_singleton, String.toList_empty, List.append_nil, stripFrom_nil] at heq
    exact ha heq
  case dot =>
    rintro rfl
    exact absurd (hapart "0" "0.0.dev0+0") (by decide)
  case plus =>
    rintro rfl
    exact absurd (hapart "0.0.0.dev0" "0") (by decide)

example : IsSeparator '-' ∧ IsSeparator '/' ∧ IsSeparator ',' ∧ IsSeparator ' ' ∧ IsSeparator '\r' ∧
    IsSeparator '\n' := by
  decide

end Rebadge.Version
