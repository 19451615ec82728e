import PassportSe.Crc

/-!
# What `check_crc` detects

`se_read` accepts a response only when `check_crc` finds, after the length byte, the CRC of the
frame in its last two bytes. The bit step `crcSchritt` is linear over GF(2), so two frames that
both pass differ by a pattern that passes in the same sense: the register the bits of its body
leave is the register its two last bytes hold. `polynom = 0x8005` is `(x + 1)(x^15 + x + 1)`, and
the three classic guarantees follow for every frame of at most 255 bytes:

* **`paritaet_crcBits`** -- the factor `x + 1`: the register's parity follows the parity of the
  bits fed, so the bits of a passing pattern have even weight;
* **`bahnMehrbittig_8000`** -- in 2024 zero steps from `0x8000` the register never holds a
  single set bit, so no pattern of two bits passes;
* **`crcBits_eq_zero_tief`** -- fewer than 16 steps cannot clear the register's low bits, so no
  burst of at most 16 bits passes;
* **`checkCrc_erkennt`** -- the three together, for two frames of one length.
-/

namespace PassportSe

/-! ## 1. The bit step is linear -/

/-- The step on a zero data bit: the register shifts, and `polynom` is added when the top bit
    falls out. -/
def nullTakt (r : BitVec 16) : BitVec 16 := crcSchritt r false

/-- The bits `bs` fed into the register `r`, one `crcSchritt` each. -/
def crcBits (r : BitVec 16) (bs : List Bool) : BitVec 16 := bs.foldl crcSchritt r

@[simp] theorem crcBits_nil (r : BitVec 16) : crcBits r [] = r := rfl

@[simp] theorem crcBits_cons (r : BitVec 16) (b : Bool) (bs : List Bool) :
    crcBits r (b :: bs) = crcBits (crcSchritt r b) bs := rfl

@[simp] theorem crcBits_append (r : BitVec 16) (u v : List Bool) :
    crcBits r (u ++ v) = crcBits (crcBits r u) v := List.foldl_append _ _ _ _

/-- `crc_bit = crc_register >> 15` is the register's top bit. -/
theorem crcSchritt_eq (r : BitVec 16) (b : Bool) :
    crcSchritt r b = (r <<< 1) ^^^ (if Bool.xor b (r.getLsbD 15) then polynom else 0) := by
  unfold crcSchritt
  rw [show (r >>> 15).getLsbD 0 = r.getLsbD 15 by simp [BitVec.getLsbD_ushiftRight]]
  split <;> simp

/-- **Linearity over GF(2)**: the step of a sum of registers and data bits is the sum of the
    steps. -/
theorem crcSchritt_xor (r r' : BitVec 16) (b b' : Bool) :
    crcSchritt (r ^^^ r') (Bool.xor b b') = crcSchritt r b ^^^ crcSchritt r' b' := by
  have hp : ∀ c c' : Bool, (if Bool.xor c c' then polynom else 0) =
      (if c then polynom else 0) ^^^ (if c' then polynom else 0) := by
    intro c c'; cases c <;> cases c' <;> simp
  rw [crcSchritt_eq, crcSchritt_eq, crcSchritt_eq, BitVec.getLsbD_xor, BitVec.shiftLeft_xor_distrib,
    show Bool.xor (Bool.xor b b') (Bool.xor (r.getLsbD 15) (r'.getLsbD 15)) =
      Bool.xor (Bool.xor b (r.getLsbD 15)) (Bool.xor b' (r'.getLsbD 15)) by
      simp only [Bool.xor_assoc, Bool.xor_left_comm], hp]
  ac_rfl

/-- A one bit enters like `0x8000` added to the register before a zero step. -/
theorem crcSchritt_true (r : BitVec 16) : crcSchritt r true = nullTakt (r ^^^ 0x8000) := by
  rw [nullTakt, crcSchritt_eq, crcSchritt_eq, BitVec.shiftLeft_xor_distrib, BitVec.getLsbD_xor,
    show (0x8000 : BitVec 16) <<< 1 = 0 by decide, show (0x8000 : BitVec 16).getLsbD 15 = true by decide]
  cases r.getLsbD 15 <;> simp

/-- **Linearity over a stream**: feeding two equally long bit streams into two registers and
    adding gives what feeding their sum into the sum gives. -/
theorem crcBits_xor (r r' : BitVec 16) (bs bs' : List Bool) (h : bs.length = bs'.length) :
    crcBits (r ^^^ r') (List.zipWith Bool.xor bs bs') = crcBits r bs ^^^ crcBits r' bs' := by
  induction bs generalizing r r' bs' with
  | nil => cases bs' <;> simp_all
  | cons b bs ih =>
    cases bs' with
    | nil => simp at h
    | cons b' bs' =>
      simp only [List.zipWith_cons_cons, crcBits_cons, crcSchritt_xor]
      exact ih _ _ bs' (by simpa using h)

/-- Zero steps lose nothing: only the zero register steps to zero. -/
theorem nullTakt_eq_zero {r : BitVec 16} (h : nullTakt r = 0) : r = 0 := by
  have h0 := congrArg (fun x => x.getLsbD 0) h
  rw [nullTakt, crcSchritt_eq] at h
  simp only [Bool.false_xor] at h h0
  cases h15 : r.getLsbD 15
  · simp only [h15, if_false, BitVec.xor_zero] at h
    apply BitVec.eq_of_getLsbD_eq
    intro i
    have hi := congrArg (fun x => x.getLsbD (i + 1)) h
    by_cases hi15 : (i : Nat) = 15
    · simpa [hi15] using h15
    · simpa [BitVec.getLsbD_shiftLeft, show (i : Nat) + 1 < 16 by omega] using hi
  · simp [nullTakt, crcSchritt_eq, h15, BitVec.getLsbD_shiftLeft, polynom] at h0

theorem iterate_nullTakt_eq_zero {r : BitVec 16} (n : Nat) (h : nullTakt^[n] r = 0) : r = 0 := by
  induction n generalizing r with
  | zero => exact h
  | succ n ih => exact nullTakt_eq_zero (ih (by rwa [← Function.iterate_succ_apply]))

@[simp] theorem iterate_nullTakt_zero (n : Nat) : nullTakt^[n] 0 = 0 := by
  induction n with
  | zero => rfl
  | succ n ih => rw [Function.iterate_succ_apply]; exact ih

/-- Zero bits are zero steps. -/
@[simp] theorem crcBits_replicate (r : BitVec 16) (n : Nat) :
    crcBits r (List.replicate n false) = nullTakt^[n] r := by
  induction n generalizing r with
  | zero => rfl
  | succ n ih => rw [List.replicate_succ, crcBits_cons, ih]; rfl

/-- From the zero register, a stream's first one bit starts the register at `polynom`, which is
    one zero step from `0x8000`. -/
theorem crcBits_erste_eins (i : Nat) (rest : List Bool) :
    crcBits 0 (List.replicate i false ++ true :: rest) = crcBits (nullTakt 0x8000) rest := by
  rw [crcBits_append, crcBits_replicate, iterate_nullTakt_zero, crcBits_cons, crcSchritt_true]
  rfl

/-! ## 2. Bytes as bits in wire order -/

/-- The bits of bytes in the order `se_crc16_chain` consumes them: byte by byte, least
    significant first. -/
def drahtBits (bs : List Byte) : List Bool := bs.flatMap fun b => (List.range 8).map b.getLsbD

@[simp] theorem drahtBits_nil : drahtBits [] = [] := rfl

@[simp] theorem drahtBits_cons (b : Byte) (bs : List Byte) :
    drahtBits (b :: bs) = (List.range 8).map b.getLsbD ++ drahtBits bs := rfl

@[simp] theorem drahtBits_length (bs : List Byte) : (drahtBits bs).length = 8 * bs.length := by
  induction bs with
  | nil => rfl
  | cons b bs ih => simp [ih]; omega

@[simp] theorem drahtBits_append (a b : List Byte) :
    drahtBits (a ++ b) = drahtBits a ++ drahtBits b := List.flatMap_append _ _ _

/-- **`se_crc16_chain` feeds the bits in wire order.** -/
theorem foldl_crcByte_eq (r : BitVec 16) (bs : List Byte) :
    bs.foldl crcByte r = crcBits r (drahtBits bs) := by
  induction bs generalizing r with
  | nil => rfl
  | cons b bs ih =>
    rw [List.foldl_cons, ih, drahtBits_cons, crcBits_append, crcByte_eq]
    simp only [crcBits, List.foldl_map]

/-- The bits of a bytewise sum are the sum of the bits. -/
theorem drahtBits_zipWith (a b : List Byte) (h : a.length = b.length) :
    drahtBits (List.zipWith (· ^^^ ·) a b) = List.zipWith Bool.xor (drahtBits a) (drahtBits b) := by
  induction a generalizing b with
  | nil => cases b <;> rfl
  | cons x a ih =>
    cases b with
    | nil => simp at h
    | cons y b =>
      rw [List.zipWith_cons_cons, drahtBits_cons, drahtBits_cons, drahtBits_cons,
        List.zipWith_append _ _ _ _ _ (by simp), ih b (by simpa using h), List.zipWith_map,
        List.zipWith_same]
      simp [BitVec.getLsbD_xor]

/-- The register's sixteen bits, least significant first. -/
def registerBits (r : BitVec 16) : List Bool := (List.range 16).map r.getLsbD

/-- The two CRC bytes, in wire order, are the register's bits. -/
theorem drahtBits_register (c0 c1 : Byte) : drahtBits [c0, c1] = registerBits (register (c0, c1)) := by
  simp [drahtBits, registerBits, List.range_succ, register, BitVec.getLsbD_or,
    BitVec.getLsbD_setWidth, BitVec.getLsbD_shiftLeft]

/-- `register` adds bytewise sums. -/
theorem register_xor (a0 a1 b0 b1 : Byte) :
    register (a0 ^^^ b0, a1 ^^^ b1) = register (a0, a1) ^^^ register (b0, b1) := by
  apply BitVec.eq_of_getLsbD_eq
  intro i
  simp only [register, BitVec.getLsbD_or, BitVec.getLsbD_xor, BitVec.getLsbD_setWidth,
    BitVec.getLsbD_shiftLeft]
  by_cases h : (i : Nat) < 8
  · simp [h]
  · simp [h, BitVec.getLsbD_ge a0 i (by omega), BitVec.getLsbD_ge b0 i (by omega),
      show (i : Nat) - 8 < 16 by omega]

/-- A bit vector with no set bit is zero. -/
theorem eq_zero_of_count_bits {w : Nat} (r : BitVec w)
    (h : ((List.range w).map r.getLsbD).count true = 0) : r = 0 := by
  apply BitVec.eq_of_getLsbD_eq
  intro i
  have hm : r.getLsbD i ∈ (List.range w).map r.getLsbD := List.mem_map.mpr ⟨i, by simp, rfl⟩
  cases hr : r.getLsbD i
  · simp
  · exact absurd (hr ▸ hm) (List.count_eq_zero.mp h)

@[simp] theorem registerBits_zero : (registerBits 0).count true = 0 := by decide

/-! ## 3. Parity: the factor `x + 1` -/

/-- Whether a bit stream has an odd number of ones. -/
def ungerade (bs : List Bool) : Bool := bs.foldr Bool.xor false

@[simp] theorem ungerade_cons (b : Bool) (bs : List Bool) : ungerade (b :: bs) = Bool.xor b (ungerade bs) :=
  rfl

theorem ungerade_append (u v : List Bool) : ungerade (u ++ v) = Bool.xor (ungerade u) (ungerade v) := by
  induction u with
  | nil => simp [ungerade]
  | cons b u ih => simp [ih, Bool.xor_assoc]

theorem ungerade_eq_count (bs : List Bool) : ungerade bs = decide (bs.count true % 2 = 1) := by
  induction bs with
  | nil => rfl
  | cons b bs ih =>
    rw [ungerade_cons, ih, List.count_cons]
    rcases Nat.mod_two_eq_zero_or_one (bs.count true) with h | h <;> cases b <;> simp [h] <;> omega

/-- The parity of the register. -/
def paritaet (r : BitVec 16) : Bool := ungerade (registerBits r)

/-- **The factor `x + 1`**: a step adds its data bit to the register's parity. The shift drops
    the top bit, and when it falls out `polynom`, with its three set bits, puts one back. -/
theorem paritaet_crcSchritt (r : BitVec 16) (b : Bool) :
    paritaet (crcSchritt r b) = Bool.xor (paritaet r) b := by
  simp only [paritaet, ungerade, registerBits, List.range_succ, List.range_zero, List.nil_append,
    List.map_append, List.map_cons, List.map_nil, List.foldr_append, List.foldr_cons,
    List.foldr_nil, crcSchritt_eq]
  cases b <;> cases h : r.getLsbD 15 <;>
    simp [h, polynom, BitVec.getLsbD_shiftLeft, Bool.not_bne, Bool.bne_not]

theorem paritaet_crcBits (r : BitVec 16) (bs : List Bool) :
    paritaet (crcBits r bs) = Bool.xor (paritaet r) (ungerade bs) := by
  induction bs generalizing r with
  | nil => simp [ungerade]
  | cons b bs ih => rw [crcBits_cons, ih, paritaet_crcSchritt, ungerade_cons, Bool.xor_assoc]

/-- **Even weight**: bits that take the zero register to `R`, followed by `R`'s own bits, have an
    even number of ones. -/
theorem gerade_of_crcBits {u : List Bool} {R : BitVec 16} (h : crcBits 0 u = R) :
    (u ++ registerBits R).count true % 2 = 0 := by
  have hp := paritaet_crcBits 0 u
  rw [h, show paritaet 0 = false by decide, Bool.false_xor] at hp
  have hc := ungerade_eq_count (u ++ registerBits R)
  rw [ungerade_append, ← hp, paritaet, Bool.xor_self, eq_comm, decide_eq_false_iff_not] at hc
  omega

/-! ## 4. Streams with few ones -/

theorem eq_replicate_of_count_true {bs : List Bool} (h : bs.count true = 0) :
    bs = List.replicate bs.length false :=
  List.eq_replicate_iff.mpr ⟨rfl, fun b hb => by
    cases b
    · rfl
    · exact absurd hb (List.count_eq_zero.mp h)⟩

/-- A stream with a one splits at its first one. -/
theorem zerlegen_erste_eins : ∀ {bs : List Bool}, 0 < bs.count true →
    ∃ i rest, bs = List.replicate i false ++ true :: rest ∧ rest.count true + 1 = bs.count true
  | [], h => by simp at h
  | true :: bs, _ => ⟨0, bs, rfl, by simp⟩
  | false :: bs, h => by
    obtain ⟨i, rest, rfl, hc⟩ := @zerlegen_erste_eins bs (by simpa using h)
    exact ⟨i + 1, rest, rfl, by simpa using hc⟩

theorem getElem?_erste_eins (i : Nat) (rest : List Bool) :
    (List.replicate i false ++ true :: rest)[i]? = some true := by
  rw [List.getElem?_append_right (by simp)]
  simp

theorem getElem?_nach_erster_eins (i : Nat) (rest : List Bool) (p : Nat) :
    (List.replicate i false ++ true :: rest)[i + 1 + p]? = rest[p]? := by
  rw [List.getElem?_append_right (by simp; omega), List.length_replicate,
    show i + 1 + p - i = p + 1 by omega, List.getElem?_cons_succ]

/-- The registers with exactly one set bit are the sixteen powers of two. -/
theorem eq_twoPow_of_count (r : BitVec 16) (h : (registerBits r).count true = 1) :
    ∃ j : Fin 16, r = BitVec.twoPow 16 j := by
  obtain ⟨j, rest, hr, hc⟩ := @zerlegen_erste_eins (registerBits r) (by omega)
  have hrest := eq_replicate_of_count_true (show rest.count true = 0 by omega)
  have hlen : j + 1 + rest.length = 16 := by
    have := congrArg List.length hr
    simp [registerBits] at this
    omega
  have hl : j < 16 := by omega
  refine ⟨⟨j, hl⟩, BitVec.eq_of_getLsbD_eq fun i => Option.some_inj.mp ?_⟩
  have hi := congrArg (fun l => l[(i : Nat)]?) hr
  simp only [registerBits, List.getElem?_map, List.getElem?_range i.isLt, Option.map_some'] at hi
  rw [hi, BitVec.getLsbD_twoPow]
  rcases Nat.lt_trichotomy i j with h | h | h
  · rw [List.getElem?_append_left (by simpa using h)]
    simp [h, h.ne']
  · rw [h, getElem?_erste_eins]
    simp [hl]
  · obtain ⟨p, hp⟩ := Nat.exists_eq_add_of_lt h
    rw [hp, show j + p + 1 = j + 1 + p by omega, getElem?_nach_erster_eins, hrest,
      List.getElem?_replicate]
    simp [hl, show p < rest.length by omega]
    omega

/-! ## 5. Two bits: the orbit of `0x8000` -/

/-- `r & (r - 1) ≠ 0`: the register has at least two set bits. -/
def mehrbittig (r : BitVec 16) : Bool := r &&& (r - 1) != 0

/-- The `k` registers after `r` on its orbit under zero steps are all `mehrbittig`. -/
def bahnMehrbittig : BitVec 16 → Nat → Bool
  | _, 0 => true
  | r, k + 1 => mehrbittig (nullTakt r) && bahnMehrbittig (nullTakt r) k

theorem bahnMehrbittig_iterate {r : BitVec 16} {k : Nat} (h : bahnMehrbittig r k = true)
    {n : Nat} (h1 : 1 ≤ n) (hn : n ≤ k) : mehrbittig (nullTakt^[n] r) = true := by
  induction k generalizing r n with
  | zero => omega
  | succ k ih =>
    simp only [bahnMehrbittig, Bool.and_eq_true] at h
    obtain _ | _ | n := n
    · omega
    · exact h.1
    · rw [Function.iterate_succ_apply]
      exact ih h.2 (by omega) (by omega)

set_option maxRecDepth 100000 in
-- the kernel runs 2024 steps of the register
/-- **The orbit of `0x8000`**: none of its first 2024 zero steps leaves a single set bit. -/
theorem bahnMehrbittig_8000 : bahnMehrbittig 0x8000 2024 = true := by decide

theorem mehrbittig_twoPow (j : Fin 16) : mehrbittig (BitVec.twoPow 16 j) = false := by
  revert j; decide

theorem eq_of_xor_eq_zero {w : Nat} {a b : BitVec w} (h : a ^^^ b = 0) : a = b := by
  rw [← @BitVec.xor_zero _ a, ← @BitVec.xor_self _ b, ← BitVec.xor_assoc, h]
  simp

/-- **No pattern of two bits is a codeword**: bits, at most 2024 of them, that take the zero
    register to `R`, together with `R`'s bits, never have exactly two ones. -/
theorem zwei_bits_ne {u : List Bool} {R : BitVec 16} (hu : u.length ≤ 2024)
    (h : crcBits 0 u = R) : (u ++ registerBits R).count true ≠ 2 := by
  rw [List.count_append]
  intro h2
  rcases Nat.eq_zero_or_pos (u.count true) with h0 | hpos
  · rw [eq_replicate_of_count_true h0, crcBits_replicate, iterate_nullTakt_zero] at h
    rw [h0, ← h] at h2
    exact absurd h2 (by decide)
  obtain ⟨i, rest, rfl, hc⟩ := zerlegen_erste_eins hpos
  rw [crcBits_erste_eins] at h
  simp only [List.length_append, List.length_replicate, List.length_cons] at hu
  rcases Nat.eq_zero_or_pos (rest.count true) with hr0 | hrpos
  · -- one bit in the body, one in the register
    rw [eq_replicate_of_count_true hr0, crcBits_replicate, ← Function.iterate_succ_apply] at h
    obtain ⟨j, rfl⟩ := eq_twoPow_of_count R (by omega)
    have := @bahnMehrbittig_iterate _ _ bahnMehrbittig_8000 (rest.length + 1) (by omega) (by omega)
    rw [h, mehrbittig_twoPow] at this
    exact Bool.false_ne_true this
  · -- two bits in the body, the register zero
    obtain ⟨k, rest', rfl, hc'⟩ := zerlegen_erste_eins hrpos
    rw [eq_zero_of_count_bits R (by simp only [registerBits] at h2; omega),
      eq_replicate_of_count_true (show rest'.count true = 0 by omega), crcBits_append,
      crcBits_replicate, crcBits_cons, crcSchritt_true, crcBits_replicate,
      ← Function.iterate_succ_apply, ← Function.iterate_succ_apply] at h
    have he := eq_of_xor_eq_zero (iterate_nullTakt_eq_zero _ h)
    simp only [List.length_append, List.length_replicate, List.length_cons] at hu
    have := @bahnMehrbittig_iterate _ _ bahnMehrbittig_8000 (k + 1) (by omega) (by omega)
    rw [he] at this
    exact absurd this (by decide)

/-! ## 6. Bursts: the register's low bits -/

theorem crcSchritt_getLsbD_zero (r : BitVec 16) (b : Bool) :
    (crcSchritt r b).getLsbD 0 = Bool.xor b (r.getLsbD 15) := by
  rw [crcSchritt_eq]
  cases Bool.xor b (r.getLsbD 15) <;> simp [BitVec.getLsbD_shiftLeft, show polynom.getLsbD 0 = true by decide]

/-- **Low bits survive short streams**: if `k` bits take `r` to zero, the low `16 - k` bits of `r`
    were zero -- a step that adds `polynom` sets bit 0, which the remaining steps only shift up. -/
theorem crcBits_eq_zero_tief {r : BitVec 16} {bs : List Bool} (h : crcBits r bs = 0) (m : Nat)
    (hm : m + bs.length < 16) : r.getLsbD m = false := by
  induction bs generalizing r m with
  | nil => simp only [crcBits_nil] at h; simp [h]
  | cons b bs ih =>
    rw [crcBits_cons] at h
    simp only [List.length_cons] at hm
    have h0 := ih h 0 (by omega)
    have h1 := ih h (m + 1) (by omega)
    rw [crcSchritt_getLsbD_zero] at h0
    rw [crcSchritt_eq, h0] at h1
    simpa [BitVec.getLsbD_shiftLeft, show m + 1 < 16 by omega] using h1

/-- **No burst of at most 16 bits is a codeword**: bits whose ones all lie in one window of 16
    positions never take the zero register to zero. -/
theorem crcBits_buendel_ne_zero {u : List Bool} {s : Nat}
    (hs : ∀ p, u[p]? = some true → s ≤ p ∧ p < s + 16) (h1 : 0 < u.count true) :
    crcBits 0 u ≠ 0 := by
  obtain ⟨i, rest, rfl, -⟩ := zerlegen_erste_eins h1
  have hi : s ≤ i := (hs i (getElem?_erste_eins i rest)).1
  have hdrop : (rest.drop 15).count true = 0 := by
    refine List.count_eq_zero.mpr fun hm => ?_
    obtain ⟨q, hq, hv⟩ := List.getElem_of_mem hm
    have := hs (i + 1 + (15 + q)) (by
      rw [getElem?_nach_erster_eins, ← List.getElem?_drop, List.getElem?_eq_getElem hq, hv])
    omega
  rw [crcBits_erste_eins, ← List.take_append_drop 15 rest, crcBits_append,
    eq_replicate_of_count_true hdrop, crcBits_replicate]
  intro h
  have := crcBits_eq_zero_tief (iterate_nullTakt_eq_zero _ h) 0 (by simp)
  exact absurd this (by decide)

/-! ## 7. Frames -/

/-- The bits in which two frames differ, in wire order. -/
def unterschied (d d' : List Byte) : List Bool := drahtBits (List.zipWith (· ^^^ ·) d d')

/-- Frames of one length with no differing bit are equal. -/
theorem eq_of_unterschied {d d' : List Byte} (hl : d.length = d'.length)
    (h : (unterschied d d').count true = 0) : d = d' := by
  induction d generalizing d' with
  | nil => cases d' <;> simp_all
  | cons x d ih =>
    cases d' with
    | nil => simp at hl
    | cons y d' =>
      simp only [unterschied, List.zipWith_cons_cons, drahtBits_cons, List.count_append] at h
      have hxy := eq_zero_of_count_bits (x ^^^ y) (by omega)
      rw [eq_of_xor_eq_zero hxy, ih (by simpa using hl) (by simp only [unterschied]; omega)]

/-- The last two bytes of a frame of `L ≥ 2` bytes. -/
theorem drop_zwei (x : List Byte) (L : Nat) (hx : x.length = L) (h2 : 2 ≤ L) :
    x.drop (L - 2) = [x.getD (L - 2) 0, x.getD (L - 1) 0] := by
  rw [List.drop_eq_getElem_cons (by omega), List.drop_eq_getElem_cons (by omega),
    List.drop_eq_nil_of_le (by omega)]
  simp [List.getD_eq_getElem?_getD, show L - 2 + 1 = L - 1 by omega,
    List.getElem?_eq_getElem (show L - 2 < x.length by omega),
    List.getElem?_eq_getElem (show L - 1 < x.length by omega)]

/-- `check_crc` accepting a frame of `L` bytes, in bits: the register its body leaves is the one
    its last two bytes hold. -/
theorem crcBits_of_checkCrc (d : List Byte) (L : Nat) (hd : d.length = L) (h2 : 2 ≤ L)
    (h255 : L ≤ 255) (h : checkCrc (Speicher.ausListe d) (BitVec.ofNat 8 L) = true) :
    crcBits 0 (drahtBits (d.take (L - 2))) = register (d.getD (L - 2) 0, d.getD (L - 1) 0) := by
  have hn : (BitVec.ofNat 8 L).toNat = L := by simp only [BitVec.toNat_ofNat]; omega
  have := ((checkCrc_eq _ _ (by omega)).mp h).2
  rwa [hn, Speicher.lies_ausListe_take _ _ (by omega), foldl_crcByte_eq] at this

/-- **Two passing frames differ by a codeword.** -/
theorem fehlermuster (d d' : List Byte) (L : Nat) (hd : d.length = L) (hd' : d'.length = L)
    (h2 : 2 ≤ L) (h255 : L ≤ 255)
    (h : checkCrc (Speicher.ausListe d) (BitVec.ofNat 8 L) = true)
    (h' : checkCrc (Speicher.ausListe d') (BitVec.ofNat 8 L) = true) :
    unterschied d d' = drahtBits ((List.zipWith (· ^^^ ·) d d').take (L - 2)) ++
        registerBits (crcBits 0 (drahtBits ((List.zipWith (· ^^^ ·) d d').take (L - 2)))) := by
  have hl : (List.zipWith (· ^^^ ·) d d').length = L := by simp [hd, hd']
  have hget : ∀ i, i < L → (List.zipWith (· ^^^ ·) d d').getD i 0 = d.getD i 0 ^^^ d'.getD i 0 :=
    fun i hi => by simp [List.getD_eq_getElem?_getD, List.getElem?_zipWith, hd, hd', hi,
      List.getElem?_eq_getElem]
  rw [List.take_zipWith, drahtBits_zipWith _ _ (by simp [hd, hd']),
    show (0 : BitVec 16) = 0 ^^^ 0 from rfl, crcBits_xor _ _ _ _ (by simp [hd, hd']),
    crcBits_of_checkCrc d L hd h2 h255 h, crcBits_of_checkCrc d' L hd' h2 h255 h', ← register_xor,
    ← hget _ (by omega), ← hget _ (by omega), ← drahtBits_register, ← drahtBits_zipWith _ _
      (by simp [hd, hd']), ← List.take_zipWith, ← drahtBits_append, ← drop_zwei _ L hl h2,
    List.take_append_drop]
  rfl

/-- **What `check_crc` detects**: of two different frames of `L` bytes, `4 ≤ L ≤ 255`, the second
    fails `check_crc` when the first passes and they differ in an odd number of bits, in exactly
    two bits, or only in bits of the body that lie in one window of 16 bits in wire order. -/
theorem checkCrc_erkennt (L : Nat) (hL : 4 ≤ L) (hL' : L ≤ 255) (d d' : List Byte)
    (hd : d.length = L) (hd' : d'.length = L) (hne : d' ≠ d)
    (hok : checkCrc (Speicher.ausListe d) (BitVec.ofNat 8 L) = true)
    (hmuster : (unterschied d d').count true % 2 = 1 ∨ (unterschied d d').count true = 2 ∨
      ∃ s, ∀ p, (unterschied d d')[p]? = some true → s ≤ p ∧ p < s + 16 ∧ p < 8 * (L - 2)) :
    checkCrc (Speicher.ausListe d') (BitVec.ofNat 8 L) = false := by
  rw [← Bool.not_eq_true]
  intro hok'
  have hpos : 0 < (unterschied d d').count true :=
    Nat.pos_of_ne_zero fun h => hne (eq_of_unterschied (by omega) h).symm
  rw [fehlermuster d d' L hd hd' (by omega) hL' hok hok'] at hmuster hpos
  set u := drahtBits ((List.zipWith (· ^^^ ·) d d').take (L - 2))
  have hu : u.length = 8 * (L - 2) := by simp [u, hd, hd']
  rcases hmuster with hodd | h2 | ⟨s, hs⟩
  · have := @gerade_of_crcBits u _ rfl
    omega
  · exact zwei_bits_ne (by omega) rfl h2
  · have hR : (registerBits (crcBits 0 u)).count true = 0 := by
      refine List.count_eq_zero.mpr fun hm => ?_
      obtain ⟨q, hq, hv⟩ := List.getElem_of_mem hm
      have := hs (u.length + q) (by
        rw [List.getElem?_append_right (by omega), Nat.add_sub_cancel_left,
          List.getElem?_eq_getElem hq, hv])
      omega
    refine @crcBits_buendel_ne_zero _ s (fun p hp => ?_) (by rw [List.count_append] at hpos; omega)
      (eq_zero_of_count_bits _ hR)
    have := hs p (by rw [List.getElem?_append_left (List.getElem?_eq_some_iff.mp hp).1]; exact hp)
    exact ⟨this.1, this.2.1⟩

set_option maxRecDepth 10000 in
-- `decide` evaluates `check_crc` on the four bytes
/-- The frame `[4, 0x5a, 0xdf, 0x41]` passes; flipping bit 0 of its body byte is caught. -/
theorem checkCrc_erkennt_bitfehler :
    checkCrc (Speicher.ausListe [0x04, 0x5a, 0xdf, 0x41]) (BitVec.ofNat 8 4) = true ∧
      checkCrc (Speicher.ausListe [0x04, 0x5b, 0xdf, 0x41]) (BitVec.ofNat 8 4) = false :=
  ⟨by decide, checkCrc_erkennt 4 (by decide) (by decide) [0x04, 0x5a, 0xdf, 0x41]
    [0x04, 0x5b, 0xdf, 0x41] rfl rfl (by decide) (by decide) (Or.inl (by decide))⟩

end PassportSe
