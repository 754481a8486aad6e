import Evalbox.Text.Utf8

/-!
# Texts as bytes and back

What is encoded is decoded to the same text (`decode_encode`). Bytes that are cut off anywhere decode to the front of
the text, or not at all (`decode_take`).
-/

namespace Evalbox.Text

/-- How many bytes a text has. -/
def byteLength : List Char → Nat
  | [] => 0
  | c :: text => c.utf8Size + byteLength text

theorem byteLength_append (a b : List Char) : byteLength (a ++ b) = byteLength a + byteLength b := by
  induction a with
  | nil => exact (Nat.zero_add _).symm
  | cons c a ih => rw [List.cons_append, byteLength, byteLength, ih, Nat.add_assoc]

/-- Bytes that go on with a character: the first is in the given bounds. -/
def Continues (low high : Nat) : List Nat → Prop
  | [] => True
  | b :: bs => low ≤ b ∧ b ≤ high ∧ Continues 0x80 0xbf bs

theorem continuation_append {low high : Nat} {bs : List Nat} (h : Continues low high bs) (value n : Nat)
    (rest : List Nat) : continuation bs.length value low high n (bs ++ rest) =
      .ok (bs.foldl (fun value b => value * 64 + b % 64) value, rest) := by
  induction bs generalizing low high value n with
  | nil => rfl
  | cons b bs ih =>
    obtain ⟨hlow, hhigh, hbs⟩ := h
    rw [List.length_cons, List.cons_append, continuation, if_pos ⟨hlow, hhigh⟩]
    exact ih hbs _ _

/-- Too few bytes are no character. -/
theorem continuation_take {low high m : Nat} {bs : List Nat} (h : Continues low high bs) (hm : m < bs.length)
    (value n : Nat) : ∃ e, continuation bs.length value low high n (bs.take m) = .error e := by
  induction bs generalizing low high value n m with
  | nil => exact absurd hm (Nat.not_lt_zero m)
  | cons b bs ih =>
    cases m with
    | zero => exact ⟨(n, true), rfl⟩
    | succ m =>
      obtain ⟨hlow, hhigh, hbs⟩ := h
      rw [List.length_cons, List.take_succ_cons, continuation, if_pos ⟨hlow, hhigh⟩]
      exact ih hbs (Nat.lt_of_succ_lt_succ hm) _ _

/-- What the first byte of a character holds of its value. -/
def leading (k b : Nat) : Nat := if k = 1 then b % 32 else if k = 2 then b % 16 else b % 8

/-- A character of several bytes: the first says how many there are, and how they go on. -/
structure Encoded (c : Char) (b : Nat) (bs : List Nat) (low high : Nat) : Prop where
  bytes : encodeChar c = b :: bs
  wide : 0x80 ≤ b
  shape : shape? b = some (bs.length, low, high)
  continues : Continues low high bs
  value : bs.foldl (fun value b => value * 64 + b % 64) (leading bs.length b) = c.toNat

theorem toNat_valid (c : Char) : c.toNat < 0xd800 ∨ 0xdfff < c.toNat ∧ c.toNat < 0x110000 := c.valid

theorem encoded_two {c : Char} (h : 0x80 ≤ c.toNat) (h' : c.toNat < 0x800) :
    ∃ b bs low high, Encoded c b bs low high := by
  refine ⟨0xc0 + c.toNat / 64, [0x80 + c.toNat % 64], 0x80, 0xbf, ?_, ?_, ?_, ?_, ?_⟩
  · rw [encodeChar, if_neg (by omega), if_pos h']
  · omega
  · rw [shape?, if_pos (by omega)]
    rfl
  · exact ⟨by omega, by omega, trivial⟩
  · have hlead : leading 1 (0xc0 + c.toNat / 64) = (0xc0 + c.toNat / 64) % 32 := rfl
    simp only [List.foldl_cons, List.foldl_nil, List.length_singleton, hlead]
    omega

theorem encoded_three {c : Char} (h : 0x800 ≤ c.toNat) (h' : c.toNat < 0x10000) :
    ∃ b bs low high, Encoded c b bs low high := by
  have hvalid := toNat_valid c
  have hbytes : encodeChar c = [0xe0 + c.toNat / 4096, 0x80 + c.toNat / 64 % 64, 0x80 + c.toNat % 64] := by
    rw [encodeChar, if_neg (by omega), if_neg (by omega), if_pos h']
  have hvalue : [0x80 + c.toNat / 64 % 64, 0x80 + c.toNat % 64].foldl (fun value b => value * 64 + b % 64)
      (leading 2 (0xe0 + c.toNat / 4096)) = c.toNat := by
    have hlead : leading 2 (0xe0 + c.toNat / 4096) = (0xe0 + c.toNat / 4096) % 16 := rfl
    simp only [List.foldl_cons, List.foldl_nil, hlead]
    omega
  -- overlong characters and surrogates are excluded by the bounds of the second byte
  obtain ⟨low, high, hshape, hlow, hhigh⟩ : ∃ low high, shape? (0xe0 + c.toNat / 4096) = some (2, low, high) ∧
      low ≤ 0x80 + c.toNat / 64 % 64 ∧ 0x80 + c.toNat / 64 % 64 ≤ high := by
    by_cases h0 : c.toNat / 4096 = 0
    · exact ⟨0xa0, 0xbf, by rw [h0]; rfl, by omega, by omega⟩
    · by_cases hd : c.toNat / 4096 = 13
      · exact ⟨0x80, 0x9f, by rw [hd]; rfl, by omega, by omega⟩
      · refine ⟨0x80, 0xbf, ?_, by omega, by omega⟩
        rw [shape?, if_neg (by omega), if_neg (by omega), if_neg (by omega), if_pos (by omega)]
  exact ⟨_, _, low, high, hbytes, by omega, hshape, ⟨hlow, hhigh, by omega, by omega, trivial⟩, hvalue⟩

theorem encoded_four {c : Char} (h : 0x10000 ≤ c.toNat) : ∃ b bs low high, Encoded c b bs low high := by
  have hvalid := toNat_valid c
  have hbytes : encodeChar c = [0xf0 + c.toNat / 262144, 0x80 + c.toNat / 4096 % 64, 0x80 + c.toNat / 64 % 64,
      0x80 + c.toNat % 64] := by
    rw [encodeChar, if_neg (by omega), if_neg (by omega), if_neg (by omega)]
  have hvalue : [0x80 + c.toNat / 4096 % 64, 0x80 + c.toNat / 64 % 64, 0x80 + c.toNat % 64].foldl
      (fun value b => value * 64 + b % 64) (leading 3 (0xf0 + c.toNat / 262144)) = c.toNat := by
    have hlead : leading 3 (0xf0 + c.toNat / 262144) = (0xf0 + c.toNat / 262144) % 8 := rfl
    simp only [List.foldl_cons, List.foldl_nil, hlead]
    omega
  obtain ⟨low, high, hshape, hlow, hhigh⟩ : ∃ low high, shape? (0xf0 + c.toNat / 262144) = some (3, low, high) ∧
      low ≤ 0x80 + c.toNat / 4096 % 64 ∧ 0x80 + c.toNat / 4096 % 64 ≤ high := by
    by_cases h0 : c.toNat / 262144 = 0
    · exact ⟨0x90, 0xbf, by rw [h0]; rfl, by omega, by omega⟩
    · by_cases h4 : c.toNat / 262144 = 4
      · exact ⟨0x80, 0x8f, by rw [h4]; rfl, by omega, by omega⟩
      · refine ⟨0x80, 0xbf, ?_, by omega, by omega⟩
        rw [shape?, if_neg (by omega), if_neg (by omega), if_neg (by omega), if_neg (by omega), if_neg (by omega),
          if_pos (by omega)]
  exact ⟨_, _, low, high, hbytes, by omega, hshape, ⟨hlow, hhigh, by omega, by omega, by omega, by omega, trivial⟩,
    hvalue⟩

/-- A character is a byte of its own, or its first byte tells how it goes on. -/
theorem encoded (c : Char) : c.toNat < 0x80 ∧ encodeChar c = [c.toNat] ∨ ∃ b bs low high, Encoded c b bs low high := by
  by_cases h1 : c.toNat < 0x80
  · exact .inl ⟨h1, by rw [encodeChar, if_pos h1]⟩
  · by_cases h2 : c.toNat < 0x800
    · exact .inr (encoded_two (by omega) h2)
    · by_cases h3 : c.toNat < 0x10000
      · exact .inr (encoded_three (by omega) h3)
      · exact .inr (encoded_four (by omega))

theorem decodeOne_encoded {c : Char} {b : Nat} {bs : List Nat} (h : encodeChar c = b :: bs) (pos : Nat)
    (rest : List Nat) : decodeOne pos b (bs ++ rest) = .ok (c, rest) := by
  rcases encoded c with ⟨hc, hb⟩ | ⟨b', bs', low, high, he⟩
  · obtain ⟨rfl, rfl⟩ := List.cons.inj (h.symm.trans hb)
    rw [decodeOne, if_pos hc, Char.ofNat_toNat]
    rfl
  · obtain ⟨rfl, rfl⟩ := List.cons.inj (h.symm.trans he.bytes)
    rw [decodeOne, if_neg (Nat.not_lt.mpr he.wide), he.shape]
    dsimp only
    rw [← leading, continuation_append he.continues]
    dsimp only
    rw [he.value, Char.ofNat_toNat]

theorem decodeOne_take {c : Char} {b m : Nat} {bs : List Nat} (h : encodeChar c = b :: bs) (hm : m < bs.length)
    (pos : Nat) : ∃ f, decodeOne pos b (bs.take m) = .error f := by
  rcases encoded c with ⟨hc, hb⟩ | ⟨b', bs', low, high, he⟩
  · obtain ⟨rfl, rfl⟩ := List.cons.inj (h.symm.trans hb)
    exact absurd hm (Nat.not_lt_zero m)
  · obtain ⟨rfl, rfl⟩ := List.cons.inj (h.symm.trans he.bytes)
    obtain ⟨⟨n, ended⟩, hcut⟩ := continuation_take he.continues hm (leading bs.length b) 0
    rw [decodeOne, if_neg (Nat.not_lt.mpr he.wide), he.shape]
    dsimp only
    rw [← leading, hcut]
    exact ⟨_, rfl⟩

theorem length_encodeChar (c : Char) : (encodeChar c).length = c.utf8Size := by
  have h1 : c.val ≤ 0x7f ↔ c.toNat < 0x80 := by
    rw [UInt32.le_iff_toNat_le]
    exact Nat.lt_succ_iff.symm
  have h2 : c.val ≤ 0x7ff ↔ c.toNat < 0x800 := by
    rw [UInt32.le_iff_toNat_le]
    exact Nat.lt_succ_iff.symm
  have h3 : c.val ≤ 0xffff ↔ c.toNat < 0x10000 := by
    rw [UInt32.le_iff_toNat_le]
    exact Nat.lt_succ_iff.symm
  show _ = if c.val ≤ 0x7f then 1 else if c.val ≤ 0x7ff then 2 else if c.val ≤ 0xffff then 3 else 4
  rw [encodeChar]
  simp only [h1, h2, h3]
  split
  · rfl
  · split
    · rfl
    · split <;> rfl

/-- The bytes of a text as numbers. -/
def bytesOf (text : List Char) : List Nat := text.flatMap encodeChar

theorem length_bytesOf (text : List Char) : (bytesOf text).length = byteLength text := by
  induction text with
  | nil => rfl
  | cons c text ih =>
    rw [bytesOf, List.flatMap_cons, ← bytesOf, List.length_append, length_encodeChar, ih, byteLength]

theorem encodeChar_lt (c : Char) : ∀ b ∈ encodeChar c, b < 256 := by
  have hvalid := toNat_valid c
  intro b hb
  rw [encodeChar] at hb
  split at hb
  · rw [List.mem_singleton] at hb
    omega
  · split at hb
    · simp only [List.mem_cons, List.not_mem_nil, or_false] at hb
      omega
    · split at hb
      all_goals
        simp only [List.mem_cons, List.not_mem_nil, or_false] at hb
        omega

theorem toNat_encode (text : List Char) : (encode text).map UInt8.toNat = bytesOf text := by
  rw [encode, List.map_map, ← bytesOf]
  refine List.map_congr_left (g := id) (fun b hb => ?_) |>.trans (List.map_id _)
  obtain ⟨c, -, hb⟩ := List.mem_flatMap.mp hb
  exact Nat.mod_eq_of_lt (encodeChar_lt c b hb)

/-! ## Decoding -/

variable {fuel n pos : Nat} {c : Char} {text done out : List Char}

theorem decodeFrom_char (fuel pos : Nat) (done : List Char) (c : Char) (rest : List Nat) :
    decodeFrom (fuel + 1) pos done (encodeChar c ++ rest) = decodeFrom fuel (pos + c.utf8Size) (c :: done) rest := by
  cases hc : encodeChar c with
  | nil =>
    have hlen := length_encodeChar c
    rw [hc] at hlen
    exact absurd hlen (Nat.ne_of_lt c.utf8Size_pos)
  | cons b bs => rw [List.cons_append, decodeFrom, decodeOne_encoded hc]

/-- A character that is cut off is a fault. -/
theorem decodeFrom_cut (fuel pos : Nat) (done : List Char) (hn : 0 < n) (h : n < c.utf8Size) :
    ∃ f, decodeFrom (fuel + 1) pos done ((encodeChar c).take n) = .error f := by
  have hlen := length_encodeChar c
  cases hc : encodeChar c with
  | nil =>
    rw [hc] at hlen
    exact absurd h (by rw [← hlen]; exact Nat.not_lt_zero n)
  | cons b bs =>
    obtain ⟨n, rfl⟩ : ∃ k, n = k + 1 := ⟨n - 1, by omega⟩
    have hm : n < bs.length := by
      rw [hc, List.length_cons] at hlen
      omega
    obtain ⟨f, hf⟩ := decodeOne_take hc hm pos
    rw [List.take_succ_cons, decodeFrom, hf]
    exact ⟨f, rfl⟩

theorem decodeFrom_bytesOf (pos : Nat) (done : List Char) (hf : text.length < fuel) :
    decodeFrom fuel pos done (bytesOf text) = .ok (done.reverse ++ text) := by
  induction text generalizing fuel pos done with
  | nil => cases fuel <;> simp [decodeFrom, bytesOf]
  | cons c text ih =>
    obtain ⟨fuel, rfl⟩ : ∃ k, fuel = k + 1 := ⟨fuel - 1, by omega⟩
    rw [bytesOf, List.flatMap_cons, decodeFrom_char, ← bytesOf, ih _ _ (Nat.lt_of_succ_lt_succ hf)]
    simp

/-- Whatever is decoded of bytes that are cut off is a front of the text. -/
theorem decodeFrom_take (hf : n < fuel) (h : decodeFrom fuel pos done ((bytesOf text).take n) = .ok out) :
    ∃ front rest, text = front ++ rest ∧ out = done.reverse ++ front := by
  induction text generalizing fuel pos n done with
  | nil =>
    refine ⟨[], [], rfl, ?_⟩
    rw [bytesOf, List.flatMap_nil, List.take_nil] at h
    cases fuel <;> simpa [decodeFrom] using h.symm
  | cons c text ih =>
    obtain ⟨fuel, rfl⟩ : ∃ k, fuel = k + 1 := ⟨fuel - 1, by omega⟩
    have hlen := length_encodeChar c
    rw [bytesOf, List.flatMap_cons, ← bytesOf] at h
    rcases Nat.lt_or_ge n c.utf8Size with hn | hn
    · rw [List.take_append_of_le_length (by omega)] at h
      rcases Nat.eq_zero_or_pos n with rfl | hpos
      · rw [List.take_zero, decodeFrom] at h
        exact ⟨[], c :: text, rfl, by simpa using h.symm⟩
      · obtain ⟨f, hcut⟩ := decodeFrom_cut fuel pos done hpos hn
        cases hcut.symm.trans h
    · have hpos := c.utf8Size_pos
      rw [List.take_append, List.take_of_length_le (by omega), decodeFrom_char, hlen] at h
      obtain ⟨front, rest, rfl, rfl⟩ := ih (by omega) h
      exact ⟨c :: front, rest, rfl, by simp⟩

theorem length_encode (text : List Char) : (encode text).length = byteLength text := by
  rw [← length_bytesOf, ← toNat_encode, List.length_map]

theorem length_le_byteLength (text : List Char) : text.length ≤ byteLength text := by
  induction text with
  | nil => exact Nat.le_refl 0
  | cons c text ih =>
    have hpos := c.utf8Size_pos
    rw [List.length_cons, byteLength]
    omega

/-- Only other characters than the first 128 have several bytes. -/
theorem byteLength_eq_length_iff {text : List Char} : byteLength text = text.length ↔ ∀ c ∈ text, c.toNat < 128 := by
  induction text with
  | nil => exact iff_of_true rfl nofun
  | cons c text ih =>
    have hpos := c.utf8Size_pos
    have hle := length_le_byteLength text
    have hc : c.utf8Size = 1 ↔ c.toNat < 128 :=
      Char.utf8Size_eq_one_iff.trans (UInt32.le_iff_toNat_le.trans Nat.lt_succ_iff.symm)
    rw [List.forall_mem_cons, ← ih, ← hc, byteLength, List.length_cons]
    omega

/-- What is encoded can be decoded. -/
theorem decode_encode (text : List Char) : decode (encode text) = .ok text := by
  rw [decode, toNat_encode, length_encode, decodeFrom_bytesOf 0 [] (Nat.lt_succ_of_le (length_le_byteLength text))]
  rfl

theorem encode_append (a b : List Char) : encode (a ++ b) = encode a ++ encode b := by
  rw [encode, List.flatMap_append, List.map_append, ← encode, ← encode]

/-- The bytes of a front decode to it. -/
theorem decode_take_front (front rest : List Char) :
    decode ((encode (front ++ rest)).take (byteLength front)) = .ok front := by
  rw [encode_append, ← length_encode, List.take_left, decode_encode]

/-- Bytes that are cut off anywhere decode to a front of the text, or not at all. -/
theorem decode_take (h : decode ((encode text).take n) = .ok out) : ∃ rest, text = out ++ rest := by
  have htake : (bytesOf text).take n = (bytesOf text).take (min n (byteLength text)) := by
    rw [← length_bytesOf, ← List.take_eq_take_min]
  rw [decode, List.map_take, toNat_encode, List.length_take, length_encode, htake] at h
  obtain ⟨front, rest, rfl, rfl⟩ := decodeFrom_take (Nat.lt_succ_self _) h
  exact ⟨rest, rfl⟩

end Evalbox.Text
