import Clausal.Text.Utf8
import Mathlib.Tactic.Lemma

/-!
# What is decoded

The decoder reads a first byte, which tells how many more bytes the character takes, and then these.
Main statement: bytes are decoded as a text exactly if they are the encoding of this text
(`decode_eq_ok_iff`), so what cannot be decoded is the encoding of no text.
-/

namespace Clausal.Text.Utf8

/-- The bytes of a text. -/
def encode (cs : List Char) : List UInt8 := cs.flatMap String.utf8EncodeChar

/-! ### The bytes of a character -/

/-- The bytes that complete a character which owes them, the next one from `low` to `high`: `value`
are the bits before them, and `code` are all bits. -/
inductive Completes : Nat → Nat → Nat → Nat → List UInt8 → Nat → Prop where
  | done {low high value} :
    Completes 0 low high value [] value
  | next {owed low high value b bs code} :
    low ≤ b.toNat →
    b.toNat ≤ high →
    Completes owed 0x80 0xBF (value * 0x40 + b.toNat % 0x40) bs code →
    Completes (owed + 1) low high value (b :: bs) code

/-- The bytes that are read as a character with a code. -/
inductive Spells : List UInt8 → Nat → Prop where
  | intro {b bs owed low high code} :
    lead b.toNat = some (owed, low, high) →
    Completes owed low high (leadBits owed b.toNat) bs code →
    Spells (b :: bs) code

section Character

variable {owed low high value code n : Nat} {b : UInt8} {bs : List UInt8}

/-- A first byte tells how many bytes the character owes, and narrows the range of the next one
where a shorter encoding, a surrogate or a code beyond the last one would come of it. -/
lemma lead_eq_some_iff : lead n = some (owed, low, high) ↔
    (n < 0x80 ∧ owed = 0 ∧ low = 0x80 ∧ high = 0xBF) ∨
    (0xC2 ≤ n ∧ n < 0xE0 ∧ owed = 1 ∧ low = 0x80 ∧ high = 0xBF) ∨
    (0xE0 ≤ n ∧ n < 0xF0 ∧ owed = 2 ∧ low = (if n = 0xE0 then 0xA0 else 0x80) ∧
      high = (if n = 0xED then 0x9F else 0xBF)) ∨
    (0xF0 ≤ n ∧ n ≤ 0xF4 ∧ owed = 3 ∧ low = (if n = 0xF0 then 0x90 else 0x80) ∧
      high = (if n = 0xF4 then 0x8F else 0xBF)) := by
  unfold lead
  repeat' split
  all_goals simp only [Option.some.injEq, Prod.mk.injEq, reduceCtorEq, false_iff]
  all_goals omega

/-- A character that owes no bytes is complete. -/
lemma completes_zero_iff : Completes 0 low high value bs code ↔ bs = [] ∧ code = value := by
  constructor
  · intro h
    cases h
    exact ⟨rfl, rfl⟩
  · rintro ⟨rfl, rfl⟩
    exact .done

/-- The next byte of a character that owes some has to be in the range, and those after it are
continuation bytes. -/
lemma completes_succ_iff : Completes (owed + 1) low high value bs code ↔
    ∃ b bs', bs = b :: bs' ∧ low ≤ b.toNat ∧ b.toNat ≤ high ∧
      Completes owed 0x80 0xBF (value * 0x40 + b.toNat % 0x40) bs' code := by
  constructor
  · intro h
    cases h with
    | next hlow hhigh hrest => exact ⟨_, _, rfl, hlow, hhigh, hrest⟩
  · rintro ⟨b, bs', rfl, hlow, hhigh, hrest⟩
    exact .next hlow hhigh hrest

/-- Every number below 256 is that of a byte. -/
lemma exists_byte (n : Nat) (h : n < 256) : ∃ b : UInt8, UInt8.ofNat n = b ∧ b.toNat = n :=
  ⟨_, rfl, UInt8.toNat_ofNat_of_lt' h⟩

/-- The encoding of a character is read as the character. -/
lemma spells_encodeChar (c : Char) : Spells (String.utf8EncodeChar c) c.toNat := by
  have hvalid : c.toNat < 0xD800 ∨ 0xDFFF < c.toNat ∧ c.toNat < 0x110000 := c.valid
  have hval : c.val.toNat = c.toNat := rfl
  simp only [String.utf8EncodeChar, hval]
  generalize c.toNat = v at hvalid
  obtain ⟨b₃, hb₃, hv₃⟩ := exists_byte (v % 64 + 128) (by omega)
  obtain ⟨b₂, hb₂, hv₂⟩ := exists_byte (v / 64 % 64 + 128) (by omega)
  obtain ⟨b₁, hb₁, hv₁⟩ := exists_byte (v / 4096 % 64 + 128) (by omega)
  rw [hb₁, hb₂, hb₃]
  -- the cases are those of the encoding: one byte, two, three, or four
  split
  · obtain ⟨b, hb, hv⟩ := exists_byte v (by omega)
    rw [hb]
    refine .intro (lead_eq_some_iff.mpr (.inl ⟨by omega, rfl, rfl, rfl⟩)) ?_
    exact completes_zero_iff.mpr ⟨rfl, hv.symm⟩
  split
  · obtain ⟨b, hb, hv⟩ := exists_byte (v / 64 % 32 + 192) (by omega)
    rw [hb]
    refine .intro (lead_eq_some_iff.mpr
      (.inr (.inl ⟨by omega, by omega, rfl, rfl, rfl⟩))) ?_
    refine .next (by omega) (by omega) (completes_zero_iff.mpr ⟨rfl, ?_⟩)
    simp only [leadBits]
    omega
  split
  · obtain ⟨b, hb, hv⟩ := exists_byte (v / 4096 % 16 + 224) (by omega)
    rw [hb]
    refine .intro (lead_eq_some_iff.mpr
      (.inr (.inr (.inl ⟨by omega, by omega, rfl, rfl, rfl⟩)))) ?_
    refine .next (by split <;> omega) (by split <;> omega) ?_
    refine .next (by omega) (by omega) (completes_zero_iff.mpr ⟨rfl, ?_⟩)
    simp only [leadBits]
    omega
  · obtain ⟨b, hb, hv⟩ := exists_byte (v / 262144 % 8 + 240) (by omega)
    rw [hb]
    refine .intro (lead_eq_some_iff.mpr
      (.inr (.inr (.inr ⟨by omega, by omega, rfl, rfl, rfl⟩)))) ?_
    refine .next (by split <;> omega) (by split <;> omega) ?_
    refine .next (by omega) (by omega) ?_
    refine .next (by omega) (by omega) (completes_zero_iff.mpr ⟨rfl, ?_⟩)
    simp only [leadBits]
    omega

/-- What is read as a character is its encoding. -/
lemma Spells.exists_char (h : Spells bs code) :
    ∃ c : Char, c.toNat = code ∧ String.utf8EncodeChar c = bs := by
  suffices h : (code < 0xD800 ∨ 0xDFFF < code ∧ code < 0x110000) ∧
      ∀ c : Char, c.val.toNat = code → String.utf8EncodeChar c = bs by
    obtain ⟨hvalid, hc⟩ := h
    exact ⟨Char.ofNatAux code hvalid, rfl, hc _ rfl⟩
  cases h with
  | @intro b bs owed low high code hlead hrest =>
    -- the narrower ranges of the second byte rule out codes that fewer bytes encode, and surrogates
    rcases lead_eq_some_iff.mp hlead with ⟨hb, rfl, -, -⟩ | ⟨hlo, hhi, rfl, rfl, rfl⟩ |
      ⟨hlo, hhi, rfl, hlow, hhigh⟩ | ⟨hlo, hhi, rfl, hlow, hhigh⟩
    · obtain ⟨rfl, rfl⟩ := completes_zero_iff.mp hrest
      simp only [leadBits]
      refine ⟨.inl (by omega), fun c hc => ?_⟩
      simp only [String.utf8EncodeChar, hc]
      rw [if_pos (by omega), UInt8.ofNat_toNat]
    · obtain ⟨b₁, bs₁, rfl, hlow₁, hhigh₁, hrest⟩ := completes_succ_iff.mp hrest
      obtain ⟨rfl, hcode⟩ := completes_zero_iff.mp hrest
      simp only [leadBits] at hcode
      have hb : code / 64 % 32 + 192 = b.toNat := by omega
      have hb₁ : code % 64 + 128 = b₁.toNat := by omega
      refine ⟨by omega, fun c hc => ?_⟩
      simp only [String.utf8EncodeChar, hc, hb, hb₁, UInt8.ofNat_toNat]
      rw [if_neg (by omega), if_pos (by omega)]
    · obtain ⟨b₁, bs₁, rfl, hlow₁, hhigh₁, hrest⟩ := completes_succ_iff.mp hrest
      obtain ⟨b₂, bs₂, rfl, hlow₂, hhigh₂, hrest⟩ := completes_succ_iff.mp hrest
      obtain ⟨rfl, hcode⟩ := completes_zero_iff.mp hrest
      have hrange : (b.toNat = 0xE0 → 0xA0 ≤ b₁.toNat) ∧ (b.toNat = 0xED → b₁.toNat ≤ 0x9F) ∧
          0x80 ≤ b₁.toNat ∧ b₁.toNat ≤ 0xBF := by
        split at hlow <;> split at hhigh <;> omega
      simp only [leadBits] at hcode
      have hb : code / 4096 % 16 + 224 = b.toNat := by omega
      have hb₁ : code / 64 % 64 + 128 = b₁.toNat := by omega
      have hb₂ : code % 64 + 128 = b₂.toNat := by omega
      refine ⟨by omega, fun c hc => ?_⟩
      simp only [String.utf8EncodeChar, hc, hb, hb₁, hb₂, UInt8.ofNat_toNat]
      rw [if_neg (by omega), if_neg (by omega), if_pos (by omega)]
    · obtain ⟨b₁, bs₁, rfl, hlow₁, hhigh₁, hrest⟩ := completes_succ_iff.mp hrest
      obtain ⟨b₂, bs₂, rfl, hlow₂, hhigh₂, hrest⟩ := completes_succ_iff.mp hrest
      obtain ⟨b₃, bs₃, rfl, hlow₃, hhigh₃, hrest⟩ := completes_succ_iff.mp hrest
      obtain ⟨rfl, hcode⟩ := completes_zero_iff.mp hrest
      have hrange : (b.toNat = 0xF0 → 0x90 ≤ b₁.toNat) ∧ (b.toNat = 0xF4 → b₁.toNat ≤ 0x8F) ∧
          0x80 ≤ b₁.toNat ∧ b₁.toNat ≤ 0xBF := by
        split at hlow <;> split at hhigh <;> omega
      simp only [leadBits] at hcode
      have hb : code / 262144 % 8 + 240 = b.toNat := by omega
      have hb₁ : code / 4096 % 64 + 128 = b₁.toNat := by omega
      have hb₂ : code / 64 % 64 + 128 = b₂.toNat := by omega
      have hb₃ : code % 64 + 128 = b₃.toNat := by omega
      refine ⟨by omega, fun c hc => ?_⟩
      simp only [String.utf8EncodeChar, hc, hb, hb₁, hb₂, hb₃, UInt8.ofNat_toNat]
      rw [if_neg (by omega), if_neg (by omega), if_neg (by omega)]

end Character

/-! ### The decoder -/

section Decoder

variable {owed low high value code p : Nat} {b : UInt8} {bs seen bytes rest : List UInt8}
  {cs : List Char}

/-- Decoding bytes behind a position, where a character starts. -/
def decodeAt (p : Nat) (bytes : List UInt8) : Except Fault (List Char) :=
  decodeFrom p [] 0 0x80 0xBF 0 bytes

/-- With its last byte a character is complete, and decoding goes on behind it. -/
lemma decodeFrom_last (hlow : low ≤ b.toNat) (hhigh : b.toNat ≤ high) :
    decodeFrom p seen 1 low high value (b :: rest) =
      (Char.ofNat (value * 0x40 + b.toNat % 0x40) :: ·) <$> decodeAt (p + 1) rest := by
  simp [decodeFrom, decodeAt, Nat.not_lt.mpr hlow, Nat.not_lt.mpr hhigh]

/-- A byte that is not the last one adds six bits, and leaves one byte less to come. -/
lemma decodeFrom_next (hlow : low ≤ b.toNat) (hhigh : b.toNat ≤ high) :
    decodeFrom p seen (owed + 2) low high value (b :: rest) =
      decodeFrom (p + 1) (b :: seen) (owed + 1) 0x80 0xBF (value * 0x40 + b.toNat % 0x40) rest := by
  simp [decodeFrom, Nat.not_lt.mpr hlow, Nat.not_lt.mpr hhigh]

/-- A first byte that owes others begins a character with the bits that it has of it. -/
lemma decodeAt_lead (hlead : lead b.toNat = some (owed + 1, low, high)) :
    decodeAt p (b :: bytes) =
      decodeFrom (p + 1) [b] (owed + 1) low high (leadBits (owed + 1) b.toNat) bytes := by
  simp [decodeAt, decodeFrom, hlead]

/-- Decoding goes on behind the bytes that a character owes. -/
lemma Completes.decodeFrom_eq (h : Completes (owed + 1) low high value bs code) :
    decodeFrom p seen (owed + 1) low high value (bs ++ rest) =
      (Char.ofNat code :: ·) <$> decodeAt (p + bs.length) rest := by
  induction owed generalizing p seen low high value bs with
  | zero =>
    obtain ⟨b, bs', rfl, hlow, hhigh, hrest⟩ := completes_succ_iff.mp h
    obtain ⟨rfl, rfl⟩ := completes_zero_iff.mp hrest
    exact decodeFrom_last hlow hhigh
  | succ owed ih =>
    obtain ⟨b, bs', rfl, hlow, hhigh, hrest⟩ := completes_succ_iff.mp h
    rw [List.cons_append, decodeFrom_next hlow hhigh, ih hrest, List.length_cons, Nat.add_assoc,
      Nat.add_comm 1]

/-- Decoding reads a character from its bytes and goes on behind them. -/
lemma Spells.decodeAt_eq (h : Spells bs code) :
    decodeAt p (bs ++ rest) = (Char.ofNat code :: ·) <$> decodeAt (p + bs.length) rest := by
  cases h with
  | @intro b bs owed low high code hlead hrest =>
    cases owed with
    | zero =>
      obtain ⟨rfl, rfl⟩ := completes_zero_iff.mp hrest
      simp [decodeAt, decodeFrom, hlead, leadBits]
    | succ owed =>
      rw [List.cons_append, decodeAt_lead hlead, hrest.decodeFrom_eq, List.length_cons,
        Nat.add_assoc, Nat.add_comm 1]

/-- Bytes with which a character cannot be completed are a fault. -/
lemma decodeFrom_fault_or_completes (bytes : List UInt8) :
    (∃ fault, decodeFrom p seen (owed + 1) low high value bytes = .error fault) ∨
      ∃ bs rest code, bytes = bs ++ rest ∧ Completes (owed + 1) low high value bs code := by
  induction bytes generalizing p seen owed low high value with
  | nil => exact .inl ⟨_, rfl⟩
  | cons b rest ih =>
    by_cases hb : low ≤ b.toNat ∧ b.toNat ≤ high
    · obtain ⟨hlow, hhigh⟩ := hb
      cases owed with
      | zero => exact .inr ⟨[b], rest, _, rfl, .next hlow hhigh .done⟩
      | succ owed =>
        rw [decodeFrom_next hlow hhigh]
        rcases ih with hfault | ⟨bs, rest', code, rfl, hrest⟩
        · exact .inl hfault
        · exact .inr ⟨b :: bs, rest', code, rfl, .next hlow hhigh hrest⟩
    · have hout : b.toNat < low ∨ high < b.toNat := by omega
      left
      simp [decodeFrom, hout]

/-- Where there are bytes, decoding meets a fault, or it reads a character. -/
lemma decodeAt_fault_or_spells (b : UInt8) (bytes : List UInt8) :
    (∃ fault, decodeAt p (b :: bytes) = .error fault) ∨
      ∃ bs rest code, b :: bytes = bs ++ rest ∧ Spells bs code := by
  cases hlead : lead b.toNat with
  | none =>
    left
    simp [decodeAt, decodeFrom, hlead]
  | some first =>
    obtain ⟨owed, low, high⟩ := first
    cases owed with
    | zero => exact .inr ⟨[b], bytes, _, rfl, .intro hlead .done⟩
    | succ owed =>
      rw [decodeAt_lead hlead]
      rcases decodeFrom_fault_or_completes bytes with hfault | ⟨bs, rest, code, rfl, hrest⟩
      · exact .inl hfault
      · exact .inr ⟨b :: bs, rest, code, rfl, .intro hlead hrest⟩

end Decoder

/-- What is decoded is a character and what is decoded behind its encoding. -/
lemma decodeAt_eq_ok {p : Nat} {bytes : List UInt8} {cs : List Char}
    (h : decodeAt p bytes = .ok cs) : bytes = [] ∧ cs = [] ∨
      ∃ c rest cs', bytes = String.utf8EncodeChar c ++ rest ∧ cs = c :: cs' ∧
        decodeAt (p + (String.utf8EncodeChar c).length) rest = .ok cs' := by
  cases bytes with
  | nil => exact .inl ⟨rfl, (Except.ok.inj h).symm⟩
  | cons b bytes =>
    right
    rcases decodeAt_fault_or_spells b bytes with ⟨fault, hfault⟩ | ⟨bs, rest, code, hbytes, hbs⟩
    · cases hfault.symm.trans h
    obtain ⟨c, rfl, rfl⟩ := hbs.exists_char
    rw [hbytes, hbs.decodeAt_eq, Char.ofNat_toNat] at h
    cases hrest : decodeAt (p + (String.utf8EncodeChar c).length) rest with
    | error fault =>
      rw [hrest] at h
      cases h
    | ok cs' =>
      rw [hrest] at h
      cases h
      exact ⟨c, rest, cs', hbytes, rfl, hrest⟩

/-- Bytes that are decoded as a text are its encoding. -/
lemma eq_encode_of_decodeAt {p : Nat} {bytes : List UInt8} {cs : List Char}
    (h : decodeAt p bytes = .ok cs) : bytes = encode cs := by
  induction cs generalizing p bytes with
  | nil =>
    rcases decodeAt_eq_ok h with ⟨rfl, -⟩ | ⟨c, rest, cs', -, hcs, -⟩
    · rfl
    · cases hcs
  | cons c cs ih =>
    rcases decodeAt_eq_ok h with ⟨-, hcs⟩ | ⟨c', rest, cs', rfl, hcs, hrest⟩
    · cases hcs
    · cases hcs
      rw [ih hrest, encode, encode, List.flatMap_cons]

/-- The encoding of a text is decoded as the text. -/
lemma decodeAt_encode (p : Nat) (cs : List Char) : decodeAt p (encode cs) = .ok cs := by
  induction cs generalizing p with
  | nil => rfl
  | cons c cs ih =>
    rw [encode, List.flatMap_cons, (spells_encodeChar c).decodeAt_eq, Char.ofNat_toNat]
    exact congrArg _ (ih _)

/-- Bytes are decoded as a text exactly if they are its encoding. -/
theorem decode_eq_ok_iff {bytes : List UInt8} {cs : List Char} :
    decode bytes = .ok cs ↔ bytes = encode cs := by
  constructor
  · exact eq_encode_of_decodeAt
  · rintro rfl
    exact decodeAt_encode 0 cs

end Clausal.Text.Utf8
