import PassportSe.Welt

/-!
# The pulse layer: `_send_bits`, `_send_serialized`, `deserialize`

A logical byte travels as eight UART bytes ("pulses"), least significant bit first: `BIT1`
(`0x7F`) for a set bit and `BIT0` (`0x7D`) for a clear one (`sendBits`). The receiving side
(`deserialize`) reads a pulse as a set bit when it is `0x7E` or `0x7F`, so a pulse that lost its
lowest bit still decodes.

* `getElem_sendBits`, `getElem_flatMap_sendBits` -- which pulse carries which bit;
* `deserializeByte_getLsbD` -- the inner loop of `deserialize`, bit by bit;
* `deserialize_achtfach` -- the outer loop on `8 k` pulses: `min k max_into` bytes, byte `j`
  from pulses `8 j … 8 j + 7`, and nothing read past them (`deserialize_liest`);
* **`deserialize_sendSerialized`** -- every stream that carries the bits of `B` decodes to `B`;
  the stream `_send_serialized` emits is one of them.
-/

namespace PassportSe

/-! ## 1. Sending -/

/-- `BIT0`: the pulse for a clear bit. -/
def BIT0 : Byte := 0x7d

/-- `BIT1`: the pulse for a set bit. -/
def BIT1 : Byte := 0x7f

/-- `_send_bits(tx)`: eight pulses, for `mask = 0x01, 0x02, …, 0x80`. -/
def sendBits (tx : Byte) : List Byte :=
  (List.range 8).map fun i => if tx &&& (1#8 <<< i) ≠ 0 then BIT1 else BIT0

/-- `_send_serialized(buf, len)`: `_send_bits` over `buf[0 .. len-1]`. -/
def sendSerialized (buf : Speicher) (len : Nat) : List Byte :=
  (buf.lies 0 len).flatMap sendBits

/-- Bit `j < 8` of the mask `1 << i` is set exactly for `j = i`. -/
theorem mask_getLsbD (i : Nat) {j : Nat} (hj : j < 8) : (1#8 <<< i).getLsbD j = decide (j = i) := by
  simp only [BitVec.getLsbD_shiftLeft, BitVec.getLsbD_one]
  by_cases h : j = i <;> simp [h] <;> omega

theorem and_mask_ne_zero (tx : Byte) {i : Nat} (hi : i < 8) :
    tx &&& (1#8 <<< i) ≠ 0 ↔ tx.getLsbD i := by
  have hbit : ∀ j, j < 8 → (tx &&& (1#8 <<< i)).getLsbD j = (tx.getLsbD j && decide (j = i)) :=
    fun j hj => by rw [BitVec.getLsbD_and, mask_getLsbD i hj]
  constructor
  · intro h
    by_contra hb
    exact h (BitVec.eq_of_getLsbD_eq fun j => by
      by_cases e : (j : Nat) = i
      · simp [hbit j j.isLt, e, hb]
      · simp [hbit j j.isLt, e])
  · intro hb h
    have := hbit i hi
    simp [h, hb] at this

@[simp] theorem sendBits_length (tx : Byte) : (sendBits tx).length = 8 := by simp [sendBits]

theorem getElem_sendBits (tx : Byte) (i : Nat) (h : i < (sendBits tx).length) :
    (sendBits tx)[i] = if tx.getLsbD i then BIT1 else BIT0 := by
  have hi : i < 8 := by simpa using h
  simp only [sendBits, List.getElem_map, List.getElem_range]
  exact if_congr (and_mask_ne_zero tx hi) rfl rfl

theorem flatMap_sendBits_length (B : List Byte) :
    (B.flatMap sendBits).length = 8 * B.length := by
  induction B with
  | nil => rfl
  | cons b B ih => simp [List.flatMap_cons, ih]; omega

/-- Pulse `8 k + i` of a serialized buffer is pulse `i` of byte `k`. -/
theorem getElem_flatMap_sendBits (B : List Byte) {k i : Nat} (hk : k < B.length) (hi : i < 8)
    (h : 8 * k + i < (B.flatMap sendBits).length) :
    (B.flatMap sendBits)[8 * k + i] = (sendBits B[k]).get ⟨i, by simpa using hi⟩ := by
  induction B generalizing k with
  | nil => simp at hk
  | cons b B ih =>
    cases k with
    | zero => simp [List.flatMap_cons, List.getElem_append_left, hi]
    | succ k =>
      simp only [List.flatMap_cons]
      rw [List.getElem_append_right (by simp; omega)]
      simp only [sendBits_length, List.getElem_cons_succ]
      have e : 8 * (k + 1) + i - 8 = 8 * k + i := by omega
      simp only [e]
      exact ih (by simpa using hk) (by rw [flatMap_sendBits_length]; simp at hk; omega)

@[simp] theorem sendSerialized_ausListe (w : List Byte) :
    sendSerialized (Speicher.ausListe w) w.length = w.flatMap sendBits := by
  simp [sendSerialized]

theorem sendSerialized_ausListe_of_length (w : List Byte) (n : Nat) (h : w.length = n) :
    sendSerialized (Speicher.ausListe w) n = w.flatMap sendBits := by
  subst h; exact sendSerialized_ausListe w

/-! ## 2. Receiving -/

/-- The inner loop of `deserialize`: pulse `i` of the eight at `src` sets bit `i` (`rv |= mask`)
    when `(src[i] ^ 0x7F) < 2`. -/
def deserializeByte (src : Speicher) : Byte :=
  (List.range 8).foldl (fun rv i => if src i ^^^ 0x7F < 2 then rv ||| (1#8 <<< i) else rv) 0

/-- The outer loop of `deserialize` from pulse `off`, with `n` rounds left: while
    `from_len > 0`, one byte from the next eight pulses; after it `max_into` counts down, and at
    `0` the loop stops. -/
def deserializeLoop (src : Speicher) : Nat → Nat → Int → Int → List Byte
  | 0, _, _, _ => []
  | n + 1, off, fromLen, maxInto =>
    if 0 < fromLen then
      let rv := deserializeByte fun i => src (off + i)
      if maxInto - 1 ≤ 0 then [rv]
      else rv :: deserializeLoop src n (off + 8) (fromLen - 8) (maxInto - 1)
    else []

/-- `deserialize(from, from_len, into, max_into)`: the bytes it writes to `into[0], into[1], …`.
    Every round takes 8 from `from_len`, so `⌈from_len / 8⌉` rounds are all it can make. -/
def deserialize (src : Speicher) (fromLen maxInto : Int) : List Byte :=
  deserializeLoop src ((fromLen + 7) / 8).toNat 0 fromLen maxInto

/-- A pulse counts as a set bit exactly when it is `0x7E` or `0x7F`. -/
theorem xor_7f_lt_two (x : Byte) : x ^^^ 0x7F < 2 ↔ x = 0x7E ∨ x = 0x7F := by
  constructor
  · intro h
    have e : x = (x ^^^ 0x7F) ^^^ 0x7F := by rw [BitVec.xor_assoc, BitVec.xor_self, BitVec.xor_zero]
    have h2 : (x ^^^ 0x7F).toNat < 2 := BitVec.lt_def.mp h
    rcases (show (x ^^^ 0x7F).toNat = 0 ∨ (x ^^^ 0x7F).toNat = 1 by omega) with h0 | h1
    · right; rw [e, show x ^^^ 0x7F = 0#8 from BitVec.eq_of_toNat_eq h0]; rfl
    · left; rw [e, show x ^^^ 0x7F = 1#8 from BitVec.eq_of_toNat_eq h1]; rfl
  · rintro (rfl | rfl) <;> decide

/-- Bits set one after another over the indices `l`. -/
theorem foldl_setzeBits_getLsbD (c : Nat → Prop) [DecidablePred c] (l : List Nat) (rv : Byte)
    {j : Nat} (hj : j < 8) :
    (l.foldl (fun rv i => if c i then rv ||| (1#8 <<< i) else rv) rv).getLsbD j =
      (rv.getLsbD j || (decide (j ∈ l) && decide (c j))) := by
  induction l generalizing rv with
  | nil => simp
  | cons i l ih =>
    rw [List.foldl_cons, ih]
    by_cases e : j = i
    · subst e
      by_cases hc : c j <;> simp [hc, BitVec.getLsbD_or, mask_getLsbD j hj]
    · by_cases hc : c i <;> simp [hc, e, BitVec.getLsbD_or, mask_getLsbD i hj]

/-- **Bit `i` of a deserialized byte** is set exactly when its pulse is `0x7E` or `0x7F`. -/
theorem deserializeByte_getLsbD (src : Speicher) {i : Nat} (hi : i < 8) :
    (deserializeByte src).getLsbD i = decide (src i = 0x7E ∨ src i = 0x7F) := by
  rw [deserializeByte, foldl_setzeBits_getLsbD _ _ _ hi]
  simp only [show (0 : Byte).getLsbD i = false from BitVec.getLsbD_zero, Bool.false_or,
    List.mem_range, hi, decide_True, Bool.true_and]
  exact decide_eq_decide.mpr (xor_7f_lt_two _)

/-- A deserialized byte depends on its eight pulses only. -/
theorem deserializeByte_congr {src src' : Speicher} (h : ∀ i, i < 8 → src i = src' i) :
    deserializeByte src = deserializeByte src' :=
  BitVec.eq_of_getLsbD_eq fun i => by
    rw [deserializeByte_getLsbD _ i.isLt, deserializeByte_getLsbD _ i.isLt, h i i.isLt]

/-- The byte the eight pulses from `off` decode to. -/
def pulsByte (src : Speicher) (off : Nat) : Byte := deserializeByte fun i => src (off + i)

/-- **The outer loop on `8 k` pulses**: `min k max_into` bytes, byte `j` from pulse `off + 8 j`
    on. -/
theorem deserializeLoop_achtfach (src : Speicher) (k off : Nat) (maxInto : Int) (h : 1 ≤ maxInto) :
    deserializeLoop src k off (8 * k) maxInto =
      (List.range (min k maxInto.toNat)).map fun j => pulsByte src (off + 8 * j) := by
  induction k generalizing off maxInto with
  | zero => simp [deserializeLoop]
  | succ k ih =>
    simp only [deserializeLoop, show (0 : Int) < 8 * ((k + 1 : Nat) : Int) by omega, if_true]
    by_cases hm : maxInto - 1 ≤ 0
    · have e : min (k + 1) maxInto.toNat = 1 := by omega
      rw [if_pos hm, e]
      rfl
    · have e : min (k + 1) maxInto.toNat = min k (maxInto - 1).toNat + 1 := by omega
      have e8 : (8 * ((k + 1 : Nat) : Int)) - 8 = 8 * (k : Int) := by omega
      rw [if_neg hm, e8, ih (off + 8) (maxInto - 1) (by omega), e, List.range_succ_eq_map]
      simp only [List.map_cons, List.map_map, Nat.mul_zero, Nat.add_zero, pulsByte]
      congr 2
      funext j
      simp only [Function.comp, Nat.mul_succ, Nat.add_assoc, Nat.add_comm 8]

/-- `deserialize` on `8 k` pulses. -/
theorem deserialize_achtfach (src : Speicher) (k : Nat) (maxInto : Int) (h : 1 ≤ maxInto) :
    deserialize src (8 * k) maxInto =
      (List.range (min k maxInto.toNat)).map fun j => pulsByte src (8 * j) := by
  have e : ((8 * (k : Int) + 7) / 8).toNat = k := by omega
  simpa [deserialize, e] using deserializeLoop_achtfach src k 0 maxInto h

/-- `deserialize` on `8 k` pulses reads only the pulses below `8 min k max_into`. -/
theorem deserialize_liest (src src' : Speicher) (k : Nat) (maxInto : Int) (h : 1 ≤ maxInto)
    (hgleich : ∀ j, j < 8 * min k maxInto.toNat → src j = src' j) :
    deserialize src (8 * k) maxInto = deserialize src' (8 * k) maxInto := by
  rw [deserialize_achtfach _ _ _ h, deserialize_achtfach _ _ _ h]
  refine List.map_congr_left fun j hj => ?_
  have hj : j < min k maxInto.toNat := List.mem_range.mp hj
  exact deserializeByte_congr fun i hi => hgleich _ (by omega)

/-! ## 3. The round trip -/

/-- The pulses of `src` carry the bits of `B`: pulse `8 k + i` is `0x7E` or `0x7F` exactly when
    bit `i` of `B[k]` is set. -/
def TraegtBits (src : Speicher) (B : List Byte) : Prop :=
  ∀ k (hk : k < B.length), ∀ i, i < 8 →
    ((src (8 * k + i) = 0x7E ∨ src (8 * k + i) = 0x7F) ↔ B[k].getLsbD i)

theorem pulsByte_of_traegtBits {src : Speicher} {B : List Byte} (h : TraegtBits src B) {k : Nat}
    (hk : k < B.length) : pulsByte src (8 * k) = B[k] :=
  BitVec.eq_of_getLsbD_eq fun i => by
    rw [pulsByte, deserializeByte_getLsbD _ i.isLt]
    exact Bool.eq_iff_iff.mpr (decide_eq_true_iff.trans (h k hk i i.isLt))

/-- Pulses that carry the bits of `B` decode to `B`, whatever lies past them. -/
theorem deserialize_traegtBits {src : Speicher} {B : List Byte} (maxInto : Int)
    (hB : (B.length : Int) ≤ maxInto) (h : TraegtBits src B) :
    deserialize src (8 * B.length) maxInto = B := by
  by_cases hne : B = []
  · subst hne; rfl
  · have h1 : 1 ≤ maxInto := by
      have := List.length_pos.mpr hne
      omega
    rw [deserialize_achtfach _ _ _ h1, show min B.length maxInto.toNat = B.length by omega]
    apply List.ext_getElem (by simp)
    intro k hk _
    simp only [List.getElem_map, List.getElem_range]
    exact pulsByte_of_traegtBits h (by simpa using hk)

/-- The stream `_send_serialized` emits carries the bits it serializes. -/
theorem traegtBits_flatMap_sendBits (B : List Byte) :
    TraegtBits (Speicher.ausListe (B.flatMap sendBits)) B := by
  intro k hk i hi
  have hl : 8 * k + i < (B.flatMap sendBits).length := by rw [flatMap_sendBits_length]; omega
  rw [Speicher.ausListe_getElem _ _ hl, getElem_flatMap_sendBits B hk hi, List.get_eq_getElem,
    getElem_sendBits]
  by_cases hb : B[k].getLsbD i <;> simp [hb, BIT0, BIT1]

/-- **Round trip of the bit codec**: for `|B| ≤ max_into`, every stream of `8 |B|` pulses that
    carries the bits of `B` deserializes to exactly `B` -- one byte for each of `B`, nothing
    more -- and the stream `_send_serialized(B, |B|)` emits is such a stream. -/
theorem deserialize_sendSerialized (B : List Byte) (maxInto : Int)
    (hB : (B.length : Int) ≤ maxInto) :
    (∀ r : List Byte, r.length = 8 * B.length → TraegtBits (Speicher.ausListe r) B →
      deserialize (Speicher.ausListe r) (8 * B.length) maxInto = B) ∧
    (sendSerialized (Speicher.ausListe B) B.length).length = 8 * B.length ∧
    TraegtBits (Speicher.ausListe (sendSerialized (Speicher.ausListe B) B.length)) B := by
  rw [sendSerialized_ausListe]
  exact ⟨fun r _ h => deserialize_traegtBits maxInto hB h, flatMap_sendBits_length B,
    traegtBits_flatMap_sendBits B⟩

/-- The law at the one-byte buffer `0xA5`: its pulses decode to it. -/
theorem deserialize_sendSerialized_a5 : (([0xA5] : List Byte).length : Int) ≤ 1 ∧
    deserialize (Speicher.ausListe (sendSerialized (Speicher.ausListe [0xA5]) 1)) 8 1 = [0xA5] :=
  ⟨by decide, by
    have h := deserialize_sendSerialized [0xA5] 1 (by decide)
    exact h.1 _ h.2.1 h.2.2⟩

end PassportSe
