import Mathlib.Data.List.Nodup
import Rebadge.Digest

/-!
# Digests as texts

Base64 reading undoes writing (`Base64.decode_encode`). The characters of a digest in the standard
encoding are letters, digits and `+`, `/`, `=`.
-/

namespace Rebadge

namespace Base64

/-! ## Digits -/

theorem digits_lt (b : Bytes) : ∀ d ∈ digits b, d < 64 := by
  induction b using digits.induct with
  | case1 x y z rest ih =>
    have hx := x.toNat_lt
    have hy := y.toNat_lt
    have hz := z.toNat_lt
    intro d hd
    rw [digits, List.mem_append] at hd
    rcases hd with hd | hd
    · simp only [List.mem_cons, List.not_mem_nil, or_false] at hd
      omega
    · exact ih d hd
  | case2 x y =>
    have hx := x.toNat_lt
    have hy := y.toNat_lt
    intro d hd
    simp only [digits, List.mem_cons, List.not_mem_nil, or_false] at hd
    omega
  | case3 x =>
    have hx := x.toNat_lt
    intro d hd
    simp only [digits, List.mem_cons, List.not_mem_nil, or_false] at hd
    omega
  | case4 =>
    intro d hd
    exact absurd hd (by simp [digits])

theorem length_digits_mod (b : Bytes) : (digits b).length % 4 ≠ 1 := by
  induction b using digits.induct with
  | case1 x y z rest ih =>
    rw [digits, List.length_append]
    show (4 + (digits rest).length) % 4 ≠ 1
    omega
  | case2 x y =>
    show 3 % 4 ≠ 1
    omega
  | case3 x =>
    show 2 % 4 ≠ 1
    omega
  | case4 => decide

theorem looseBits_digits (b : Bytes) : looseBits (digits b) = 0 := by
  induction b using digits.induct with
  | case1 x y z rest ih => simpa [digits, looseBits] using ih
  | case2 x y =>
    show y.toNat % 16 * 4 % 4 = 0
    omega
  | case3 x =>
    show x.toNat % 4 * 16 % 16 = 0
    omega
  | case4 => rfl

theorem ofDigits_digits (b : Bytes) : ofDigits (digits b) = b := by
  induction b using digits.induct with
  | case1 x y z rest ih =>
    have hx : x.toNat / 4 * 4 + (x.toNat % 4 * 16 + y.toNat / 16) / 16 = x.toNat := by
      have := y.toNat_lt
      omega
    have hy : (x.toNat % 4 * 16 + y.toNat / 16) % 16 * 16 + (y.toNat % 16 * 4 + z.toNat / 64) / 4 =
        y.toNat := by
      have := y.toNat_lt
      have := z.toNat_lt
      omega
    have hz : (y.toNat % 16 * 4 + z.toNat / 64) % 4 * 64 + z.toNat % 64 = z.toNat := by
      have := z.toNat_lt
      omega
    simp only [digits, List.cons_append, List.nil_append, ofDigits, hx, hy, hz,
      ih, UInt8.ofNat_toNat]
  | case2 x y =>
    have hx : x.toNat / 4 * 4 + (x.toNat % 4 * 16 + y.toNat / 16) / 16 = x.toNat := by
      have := y.toNat_lt
      omega
    have hy : (x.toNat % 4 * 16 + y.toNat / 16) % 16 * 16 + y.toNat % 16 * 4 / 4 = y.toNat := by
      have := y.toNat_lt
      omega
    simp only [digits, ofDigits, hx, hy, UInt8.ofNat_toNat]
  | case3 x =>
    have hx : x.toNat / 4 * 4 + x.toNat % 4 * 16 / 16 = x.toNat := by omega
    simp only [digits, ofDigits, hx, UInt8.ofNat_toNat]
  | case4 => rfl

/-! ## Characters -/

theorem digit?_char (a : Alphabet) {d : Nat} (h : d < 64) :
    (String.utf8EncodeChar (a.char d)).map a.digit? = [some d] := by
  have hall : ∀ a ∈ [Alphabet.standard, .urlSafe], ∀ d : Fin 64,
      (String.utf8EncodeChar (a.char d)).map a.digit? = [some d.val] := by decide
  exact hall a (by cases a <;> simp) ⟨d, h⟩

/-- The characters of the standard alphabet. -/
def isStandardChar (c : Char) : Bool := c.isAlphanum || c == '+' || c == '/'

theorem isStandardChar_char {d : Nat} (h : d < 64) :
    isStandardChar (Alphabet.standard.char d) = true := by
  have hall : ∀ d : Fin 64, isStandardChar (Alphabet.standard.char d) = true := by decide
  exact hall ⟨d, h⟩

theorem isStandardChar_of_mem_encode {b : Bytes} {c : Char} (h : c ∈ encode .standard b) :
    isStandardChar c = true := by
  obtain ⟨d, hd, rfl⟩ := List.mem_map.1 h
  exact isStandardChar_char (digits_lt b d hd)

/-! ## The round trip -/

theorem map_digit?_encode (a : Alphabet) {ds : List Nat} (h : ∀ d ∈ ds, d < 64) :
    (utf8 (.ofList (ds.map a.char))).map a.digit? = ds.map some := by
  unfold utf8
  rw [String.toList_ofList]
  induction ds with
  | nil => rfl
  | cons d ds ih =>
    rw [List.map_cons, List.flatMap_cons, List.map_append, digit?_char a (h d (by simp)),
      ih fun e he => h e (by simp [he])]
    rfl

theorem readDigits_of_map {a : Alphabet} {text : Bytes} {ds : List Nat}
    (h : text.map a.digit? = ds.map some) (n : Nat) : readDigits a n text = .ok ds := by
  induction text generalizing ds n with
  | nil =>
    cases ds with
    | nil => rfl
    | cons d ds => simp at h
  | cons b text ih =>
    cases ds with
    | nil => simp at h
    | cons d ds =>
      simp only [List.map_cons, List.cons.injEq] at h
      simp only [readDigits, h.1, ih h.2]
      rfl

/-- A text with a lone digit at its end is not read. -/
theorem decode_lone {a : Alphabet} {text : Bytes} (hlone : text.length % 4 = 1) :
    ∃ why, decode a text = .error why := by
  unfold decode
  cases text.getLast? with
  | none =>
    cases readDigits a 0 text with
    | error why => exact ⟨why, rfl⟩
    | ok ds =>
      simp only [hlone, if_true]
      exact ⟨_, rfl⟩
  | some last =>
    by_cases hlast : a.digit? last = none
    · simp only [hlone, hlast, and_self, if_true]
      exact ⟨_, rfl⟩
    · simp only [hlone, hlast, and_false, if_false]
      cases readDigits a 0 text with
      | error why => exact ⟨why, rfl⟩
      | ok ds => exact ⟨_, rfl⟩

theorem decode_of_not_lone {a : Alphabet} {text : Bytes} (hlone : text.length % 4 ≠ 1) :
    decode a text = (readDigits a 0 text).bind fun ds =>
      if looseBits ds ≠ 0 then .error (.invalidLastSymbol (text.getLastD 0) (text.length - 1))
          else .ok (ofDigits ds) := by
  unfold decode
  simp only [hlone, false_and, if_false]
  cases text.getLast? with
  | none => rfl
  | some last => rfl

/-- **Round trip.** Reading gives back the bytes that were written. -/
theorem decode_encode (a : Alphabet) (b : Bytes) :
    decode a (utf8 (.ofList (encode a b))) = .ok b := by
  have hmap := map_digit?_encode a (digits_lt b)
  have hlen : (utf8 (.ofList (encode a b))).length = (digits b).length := by
    simpa [encode] using congrArg List.length hmap
  have hmod : (utf8 (.ofList (encode a b))).length % 4 ≠ 1 := by
    rw [hlen]
    exact length_digits_mod b
  have hread : readDigits a 0 (utf8 (.ofList (encode a b))) = .ok (digits b) :=
    readDigits_of_map hmap 0
  rw [decode_of_not_lone hmod, hread]
  show (if looseBits (digits b) ≠ 0 then _ else Except.ok (ofDigits (digits b))) = _
  rw [if_neg (by simp [looseBits_digits]), ofDigits_digits]

end Base64

namespace Digest

theorem mem_ofContent {content : Bytes} {c : Char} (h : c ∈ (ofContent content .standard).toList) :
    Base64.isStandardChar c = true ∨ c = '=' := by
  unfold ofContent at h
  rw [String.toList_append, String.toList_ofList, List.mem_append, List.mem_append] at h
  rcases h with h | h | h
  · have htag : tag.toList.all (fun c => Base64.isStandardChar c || c == '=') = true := rfl
    simpa using List.all_eq_true.1 htag c h
  · exact Or.inl (Base64.isStandardChar_of_mem_encode h)
  · exact Or.inr (List.eq_of_mem_replicate h)

theorem ofContent_ne_empty (content : Bytes) (encoding : DigestEncoding) :
    (ofContent content encoding).toList ≠ [] := by
  unfold ofContent
  rw [String.toList_append]
  intro h
  exact absurd (List.append_eq_nil_iff.1 h).1 (by decide)

end Digest
end Rebadge
