import Rebadge.Proofs.Digest

/-!
# What digests are accepted

Base64 reading accepts exactly what writing produces (`Base64.decode_eq_ok_iff`), and one text never
stands for two contents, not even in different alphabets (`Base64.encode_inj`). So a digest is read
as the only hash whose encoding it holds between the tag and the equals signs at its end
(`Digest.decode_eq_ok_iff`), and checking it has three outcomes that the text and the hash of the
content decide (`Digest.verify_outcomes`).
-/

namespace Rebadge

namespace Base64

variable {a a' : Alphabet} {b b' : Bytes} {ds : List Nat} {e : List Char}

/-! ## What is read -/

theorem char_of_digit? {byte : UInt8} {d : Nat} (h : a.digit? byte = some d) :
    d < 64 ∧ String.utf8EncodeChar (a.char d) = [byte] := by
  have hall : ∀ a ∈ [Alphabet.standard, .urlSafe], ∀ n : Fin 256, ∀ d ∈ a.digit? (.ofNat n),
      d < 64 ∧ String.utf8EncodeChar (a.char d) = [UInt8.ofNat n] := by decide +kernel
  have hbyte := hall a (by cases a <;> simp) ⟨byte.toNat, byte.toNat_lt⟩ d
  rw [UInt8.ofNat_toNat] at hbyte
  exact hbyte h

theorem map_of_readDigits {text : Bytes} {n : Nat} (h : readDigits a n text = .ok ds) :
    text.map a.digit? = ds.map some := by
  induction text generalizing n ds with
  | nil =>
    obtain rfl : [] = ds := Except.ok.inj h
    rfl
  | cons byte text ih =>
    rw [readDigits] at h
    cases hd : a.digit? byte with
    | none => rw [hd] at h; exact absurd h (by simp)
    | some d =>
      rw [hd] at h
      cases hrest : readDigits a (n + 1) text with
      | error why => rw [hrest] at h; exact absurd h (by simp [Except.map])
      | ok rest =>
        rw [hrest] at h
        obtain rfl : d :: rest = ds := Except.ok.inj h
        rw [List.map_cons, List.map_cons, hd, ih hrest]

theorem utf8_of_map {text : Bytes} (h : text.map a.digit? = ds.map some) :
    (∀ d ∈ ds, d < 64) ∧ text = utf8 (.ofList (ds.map a.char)) := by
  unfold utf8
  rw [String.toList_ofList]
  induction text generalizing ds with
  | nil =>
    obtain rfl : ds = [] := by simpa using h.symm
    exact ⟨by simp, rfl⟩
  | cons byte text ih =>
    cases ds with
    | nil => simp at h
    | cons d ds =>
      obtain ⟨hd, hrest⟩ := List.cons.inj h
      obtain ⟨hlt, htext⟩ := ih hrest
      obtain ⟨hd64, hbyte⟩ := char_of_digit? hd
      refine ⟨List.forall_mem_cons.2 ⟨hd64, hlt⟩, ?_⟩
      rw [List.map_cons, List.flatMap_cons, hbyte, ← htext]
      rfl

/-- Groups of digits without a lone digit and without loose bits are the digits of their bytes. -/
theorem digits_ofDigits (hlt : ∀ d ∈ ds, d < 64) (hlone : ds.length % 4 ≠ 1)
    (hloose : looseBits ds = 0) : digits (ofDigits ds) = ds := by
  induction ds using ofDigits.induct with
  | case1 w x y z rest ih =>
    simp only [List.forall_mem_cons] at hlt
    obtain ⟨hw, hx, hy, hz, hrest⟩ := hlt
    have hlen : rest.length % 4 ≠ 1 := by
      simp only [List.length_cons] at hlone
      omega
    rw [ofDigits, digits, ih hrest hlen hloose]
    simp only [UInt8.toNat_ofNat', List.cons_append, List.nil_append, List.cons.injEq, and_true]
    omega
  | case2 x y z =>
    simp only [List.forall_mem_cons] at hlt
    obtain ⟨hx, hy, hz, -⟩ := hlt
    have hzero : z % 4 = 0 := hloose
    rw [ofDigits, digits]
    simp only [UInt8.toNat_ofNat', List.cons.injEq, and_true]
    omega
  | case3 x y =>
    simp only [List.forall_mem_cons] at hlt
    obtain ⟨hx, hy, -⟩ := hlt
    have hzero : y % 16 = 0 := hloose
    rw [ofDigits, digits]
    simp only [UInt8.toNat_ofNat', List.cons.injEq, and_true]
    omega
  | case4 ds h4 h3 h2 =>
    rcases ds with _ | ⟨w, _ | ⟨x, _ | ⟨y, _ | ⟨z, rest⟩⟩⟩⟩
    · rfl
    · exact absurd rfl hlone
    · exact absurd rfl (h2 w x)
    · exact absurd rfl (h3 w x y)
    · exact absurd rfl (h4 w x y z rest)

theorem encode_of_decode {text : Bytes} (h : decode a text = .ok b) :
    text = utf8 (.ofList (encode a b)) := by
  by_cases hlone : text.length % 4 = 1
  · obtain ⟨why, hwhy⟩ := decode_lone (a := a) hlone
    rw [hwhy] at h
    exact absurd h (by simp)
  · rw [decode_of_not_lone hlone] at h
    cases hread : readDigits a 0 text with
    | error why => rw [hread] at h; exact absurd h (by simp [Except.bind])
    | ok ds =>
      rw [hread] at h
      replace h : (if looseBits ds ≠ 0 then _ else Except.ok (ofDigits ds)) = Except.ok b := h
      have hmap := map_of_readDigits hread
      obtain ⟨hlt, htext⟩ := utf8_of_map hmap
      have hlen : text.length = ds.length := by simpa using congrArg List.length hmap
      by_cases hloose : looseBits ds = 0
      · rw [if_neg (by simp [hloose]), Except.ok.injEq] at h
        rw [htext, ← h, encode, digits_ofDigits hlt (hlen ▸ hlone) hloose]
      · rw [if_pos hloose] at h
        exact absurd h (by simp)

/-- **Reading is exact.** It accepts what writing produces and nothing else. -/
theorem decode_eq_ok_iff {text : String} :
    decode a (utf8 text) = .ok b ↔ text.toList = encode a b := by
  constructor
  · intro h
    rw [utf8_injective (encode_of_decode h), String.toList_ofList]
  · intro h
    rw [← String.ofList_toList (s := text), h]
    exact decode_encode a b

/-! ## One text, one content -/

theorem char_inj {d d' : Nat} (h : d < 64) (h' : d' < 64) (heq : a.char d = a'.char d') :
    d = d' := by
  -- The digit is found again by a look into one alphabet and then into the other, whichever the
  -- character is of.
  have hall : ∀ a ∈ [Alphabet.standard, .urlSafe], ∀ d : Fin 64,
      (Alphabet.standard.digit? (.ofNat (a.char d).toNat)).or
        (Alphabet.urlSafe.digit? (.ofNat (a.char d).toNat)) = some d.val := by decide +kernel
  have hd := hall a (by cases a <;> simp) ⟨d, h⟩
  have hd' := hall a' (by cases a' <;> simp) ⟨d', h'⟩
  rw [heq, hd'] at hd
  exact (Option.some.inj hd).symm

theorem map_char_inj {ds' : List Nat} (h : ∀ d ∈ ds, d < 64) (h' : ∀ d ∈ ds', d < 64)
    (heq : ds.map a.char = ds'.map a'.char) : ds = ds' := by
  induction ds generalizing ds' with
  | nil => exact (List.map_eq_nil_iff.1 heq.symm).symm
  | cons d ds ih =>
    cases ds' with
    | nil => exact absurd heq (by simp)
    | cons d' ds' =>
      obtain ⟨hd, hrest⟩ := List.cons.inj heq
      rw [char_inj (h d (by simp)) (h' d' (by simp)) hd,
        ih (fun e he => h e (by simp [he])) (fun e he => h' e (by simp [he])) hrest]

/-- **One text, one content.** A text encodes the same bytes in both alphabets, if it encodes
any. -/
theorem encode_inj (h : encode a b = encode a' b') : b = b' := by
  have hdigits : digits b = digits b' := map_char_inj (digits_lt b) (digits_lt b') h
  rw [← ofDigits_digits b, hdigits, ofDigits_digits]

/-! ## Texts that encode nothing -/

/-- The text encodes some bytes. -/
def Canonical (a : Alphabet) (e : List Char) : Prop := ∃ b, e = encode a b

/-- Ways to be no encoding in either alphabet. -/
inductive Broken : List Char → Prop where
  /-- There is an equals sign in the text. -/
  | equals {e : List Char} (h : '=' ∈ e) : Broken e
  /-- Digits of both alphabets are mixed. -/
  | mixed {e : List Char} {x y : Char} (hx : x ∈ ['+', '/']) (hy : y ∈ ['-', '_'])
    (h : x ∈ e ∧ y ∈ e) : Broken e
  /-- There is a lone digit at the end. -/
  | lone {e : List Char} (h : e.length % 4 = 1) : Broken e
  /-- The last digit has a bit set that belongs to no byte. -/
  | loose {a : Alphabet} {ds : List Nat} (h : ∀ d ∈ ds, d < 64) (hloose : looseBits ds ≠ 0) :
    Broken (ds.map a.char)

theorem char_ne {d : Nat} (h : d < 64) : a.char d ≠ '=' ∧
    a.char d ∉ match a with
      | .standard => ['-', '_']
      | .urlSafe => ['+', '/'] := by
  have hall : ∀ d : Fin 64,
      (Alphabet.standard.char d ≠ '=' ∧ Alphabet.standard.char d ∉ ['-', '_']) ∧
      Alphabet.urlSafe.char d ≠ '=' ∧ Alphabet.urlSafe.char d ∉ ['+', '/'] := by decide
  cases a with
  | standard => exact (hall ⟨d, h⟩).1
  | urlSafe => exact (hall ⟨d, h⟩).2

theorem Broken.not_canonical (h : Broken e) : ¬ Canonical a e := by
  rintro ⟨b, hb⟩
  have hchar : ∀ c ∈ e, c ≠ '=' ∧ c ∉ match a with
      | .standard => ['-', '_']
      | .urlSafe => ['+', '/'] := by
    intro c hc
    rw [hb] at hc
    obtain ⟨d, hd, rfl⟩ := List.mem_map.1 hc
    exact char_ne (digits_lt b d hd)
  cases h with
  | equals hmem => exact (hchar _ hmem).1 rfl
  | mixed hx hy hmem =>
    cases a with
    | standard => exact (hchar _ hmem.2).2 hy
    | urlSafe => exact (hchar _ hmem.1).2 hx
  | lone hlen =>
    rw [hb, encode, List.length_map] at hlen
    exact length_digits_mod b hlen
  | loose hlt hloose =>
    rw [map_char_inj hlt (digits_lt b) hb] at hloose
    exact hloose (looseBits_digits b)

end Base64

namespace Digest

variable {digest : String} {content hash : Bytes} {e e' : List Char}

/-! ## The text of a digest -/

/-- The digest is the tag, the text and equals signs. -/
def Holds (digest : String) (e : List Char) : Prop :=
  e.getLast? ≠ some '=' ∧ ∃ n, digest.toList = tag.toList ++ (e ++ List.replicate n '=')

theorem dropEndWhile_equals (h : e.getLast? ≠ some '=') (n : Nat) :
    Chars.dropEndWhile (· == '=') (e ++ List.replicate n '=') = e := by
  unfold Chars.dropEndWhile
  rw [List.reverse_append, List.reverse_replicate, List.dropWhile_append_of_pos (by simp)]
  have hstay : e.reverse.dropWhile (· == '=') = e.reverse := by
    rw [← List.head?_reverse] at h
    cases hr : e.reverse with
    | nil => rfl
    | cons c s =>
      rw [hr] at h
      exact List.dropWhile_cons_of_neg (by simpa using h)
  rw [hstay, List.reverse_reverse]

theorem dropEndWhile_append (s : List Char) :
    ∃ n, s = Chars.dropEndWhile (· == '=') s ++ List.replicate n '=' := by
  have hequals : s.reverse.takeWhile (· == '=') =
      List.replicate (s.reverse.takeWhile (· == '=')).length '=' := by
    rw [List.eq_replicate_iff]
    exact ⟨rfl, fun c hc => by simpa using List.all_eq_true.1 List.all_takeWhile c hc⟩
  refine ⟨(s.reverse.takeWhile (· == '=')).length, ?_⟩
  unfold Chars.dropEndWhile
  rw [← List.reverse_replicate, ← hequals, ← List.reverse_append, List.takeWhile_append_dropWhile,
    List.reverse_reverse]

theorem holds_iff {encoded : String} :
    Holds (tag ++ encoded) e ↔ e = Chars.dropEndWhile (· == '=') encoded.toList := by
  unfold Holds
  simp only [String.toList_append, List.append_cancel_left_eq]
  constructor
  · rintro ⟨hlast, n, hn⟩
    rw [hn, dropEndWhile_equals hlast]
  · rintro rfl
    refine ⟨?_, dropEndWhile_append _⟩
    unfold Chars.dropEndWhile
    rw [List.getLast?_reverse]
    intro hhead
    have h := List.head?_dropWhile_not (· == '=') encoded.toList.reverse
    rw [hhead] at h
    exact absurd h (by simp)

/-- A text that starts with the tag is a digest that holds something. -/
theorem exists_encoded (h : tag.toList <+: digest.toList) : ∃ encoded, digest = tag ++ encoded := by
  obtain ⟨rest, hrest⟩ := h
  exact ⟨.ofList rest,
    by rw [← String.toList_inj, String.toList_append, String.toList_ofList, hrest]⟩

theorem Holds.tag (h : Holds digest e) : ∃ encoded, digest = Digest.tag ++ encoded := by
  obtain ⟨-, n, hn⟩ := h
  exact exists_encoded (hn ▸ List.prefix_append _ _)

theorem Holds.eq (h : Holds digest e) (h' : Holds digest e') : e = e' := by
  obtain ⟨encoded, rfl⟩ := h.tag
  rw [holds_iff.1 h, holds_iff.1 h']

/-! ## Reading a digest -/

/-- **Reading a digest.** The hash is the one whose encoding the digest holds, in either
alphabet. -/
theorem decode_eq_ok_iff : decode digest = .ok hash ↔ ∃ a, Holds digest (Base64.encode a hash) := by
  by_cases htag : Digest.tag.toList <+: digest.toList
  · obtain ⟨encoded, rfl⟩ := exists_encoded htag
    have htext : (Text.trimEnd encoded '=').toList = Chars.dropEndWhile (· == '=') encoded.toList :=
      String.toList_ofList
    have hread : ∀ {a hash}, Base64.decode a (utf8 (Text.trimEnd encoded '=')) = .ok hash ↔
        Holds (Digest.tag ++ encoded) (Base64.encode a hash) := by
      intro a hash
      rw [Base64.decode_eq_ok_iff, htext, holds_iff, eq_comm]
    unfold decode
    simp only [Text.stripPrefix?_append]
    cases hstandard : Base64.decode .standard (utf8 (Text.trimEnd encoded '=')) with
    | ok first =>
      have hfirst := hread.1 hstandard
      constructor
      · rintro heq
        obtain rfl := Except.ok.inj heq
        exact ⟨_, hfirst⟩
      · rintro ⟨a, ha⟩
        rw [Base64.encode_inj (ha.eq hfirst)]
    | error why =>
      cases hurl : Base64.decode .urlSafe (utf8 (Text.trimEnd encoded '=')) with
      | ok second =>
        have hsecond := hread.1 hurl
        constructor
        · rintro heq
          obtain rfl := Except.ok.inj heq
          exact ⟨_, hsecond⟩
        · rintro ⟨a, ha⟩
          rw [Base64.encode_inj (ha.eq hsecond)]
          rfl
      | error why' =>
        refine iff_of_false (by simp [Except.mapError]) ?_
        rintro ⟨a, ha⟩
        rw [← hread] at ha
        cases a with
        | standard => rw [ha] at hstandard; exact absurd hstandard (by simp)
        | urlSafe => rw [ha] at hurl; exact absurd hurl (by simp)
  · refine iff_of_false ?_ ?_
    · unfold decode
      cases hpre : Text.stripPrefix? Digest.tag digest with
      | none => simp
      | some encoded =>
        unfold Text.stripPrefix? at hpre
        obtain ⟨rest, hrest, -⟩ := Option.map_eq_some_iff.1 hpre
        exact absurd ⟨rest, List.isPrefixOf?_eq_some_iff_append_eq.1 hrest⟩ htag
    · rintro ⟨a, -, n, hn⟩
      exact htag (hn ▸ List.prefix_append _ _)

theorem getLast?_encode (a : Base64.Alphabet) (b : Bytes) :
    (Base64.encode a b).getLast? ≠ some '=' := by
  intro h
  obtain ⟨d, hd, heq⟩ := List.mem_map.1 (List.mem_of_getLast? h)
  exact (Base64.char_ne (Base64.digits_lt b d hd)).1 heq

theorem decode_ofContent (content : Bytes) (encoding : DigestEncoding) :
    decode (ofContent content encoding) = .ok (Sha256.hash content) := by
  rw [decode_eq_ok_iff]
  unfold ofContent
  cases encoding with
  | standard =>
    refine ⟨.standard, getLast?_encode _ _, (3 - (Sha256.hash content).length % 3) % 3, ?_⟩
    rw [String.toList_append, String.toList_ofList]
    rfl
  | urlSafeNoPad =>
    refine ⟨.urlSafe, getLast?_encode _ _, 0, ?_⟩
    rw [String.toList_append, String.toList_ofList, List.replicate_zero, List.append_nil]

/-! ## Checking a digest -/

theorem verify_eq_ok_iff {b : Bool} :
    verify digest content = .ok b ↔ ∃ hash, decode digest = .ok hash ∧
    (hash == Sha256.hash content) = b := by
  unfold verify
  cases decode digest with
  | error why => simp [Except.map]
  | ok hash => simp [Except.map]

/-- **Digests check.** The digest of a content is one of exactly the contents with its hash. -/
theorem verify_ofContent (content content' : Bytes) (encoding : DigestEncoding) :
    verify (ofContent content encoding) content' =
      .ok (Sha256.hash content == Sha256.hash content') :=
  verify_eq_ok_iff.2 ⟨_, decode_ofContent content encoding, rfl⟩

/-- The text of a digest of the content: in either alphabet, and with any number of equals signs. -/
def IsOf (digest : String) (content : Bytes) : Prop :=
  ∃ a n, digest.toList = tag.toList ++
    (Base64.encode a (Sha256.hash content) ++ List.replicate n '=')

/-- The text of no digest: the tag is missing, or what stands between it and the equals signs at the
end is Base64 in neither alphabet. -/
def Malformed (digest : String) : Prop :=
  ¬ tag.toList <+: digest.toList ∨ ∃ e, Holds digest e ∧ ∀ a, ¬ Base64.Canonical a e

theorem isOf_iff : IsOf digest content ↔ decode digest = .ok (Sha256.hash content) := by
  rw [decode_eq_ok_iff]
  constructor
  · rintro ⟨a, n, hn⟩
    exact ⟨a, getLast?_encode _ _, n, hn⟩
  · rintro ⟨a, -, n, hn⟩
    exact ⟨a, n, hn⟩

theorem malformed_iff : Malformed digest ↔ ∀ hash, decode digest ≠ .ok hash := by
  simp only [ne_eq, decode_eq_ok_iff, not_exists]
  constructor
  · rintro (htag | ⟨e, he, hnone⟩) hash a ha
    · obtain ⟨-, n, hn⟩ := ha
      exact htag (hn ▸ List.prefix_append _ _)
    · exact hnone a ⟨hash, he.eq ha⟩
  · intro hnone
    by_cases htag : tag.toList <+: digest.toList
    · obtain ⟨encoded, rfl⟩ := exists_encoded htag
      refine Or.inr ⟨_, holds_iff.2 rfl, ?_⟩
      rintro a ⟨hash, hhash⟩
      exact hnone hash a (hhash ▸ holds_iff.2 rfl)
    · exact Or.inl htag

/-- **Checking a digest.** It is of the content exactly if it holds an encoding of the content's
hash; it is refused exactly if it is malformed, as it is with a text that is broken in one of the
four ways; and otherwise it is of another content. A digest that was made of a content is of exactly
the contents with the same hash. -/
theorem verify_outcomes (digest : String) (content : Bytes) :
    (verify digest content = .ok true ↔ IsOf digest content) ∧
      ((∃ why, verify digest content = .error why) ↔ Malformed digest) ∧
      (verify digest content = .ok false ↔ ¬ IsOf digest content ∧ ¬ Malformed digest) ∧
      (∀ e, Holds digest e → Base64.Broken e → ∃ why, verify digest content = .error why) ∧
      ∀ original encoding, verify (ofContent original encoding) content =
        .ok (Sha256.hash original == Sha256.hash content) := by
  have htrue : verify digest content = .ok true ↔ IsOf digest content := by
    rw [verify_eq_ok_iff, isOf_iff]
    simp
  have herror : (∃ why, verify digest content = .error why) ↔ Malformed digest := by
    rw [malformed_iff]
    unfold verify
    cases decode digest with
    | error why => simp [Except.map]
    | ok hash => simp [Except.map]
  refine ⟨htrue, herror, ?_, ?_, fun original => verify_ofContent original content⟩
  · rw [← htrue, ← herror]
    cases verify digest content with
    | error why => simp
    | ok b => simp
  · intro e he hbroken
    exact herror.2 (Or.inr ⟨e, he, fun a => hbroken.not_canonical⟩)

end Digest
end Rebadge
