import PassportSe.Pulse

/-!
# `se_read_response`: receiving a response

After `IOFLAG_TX` the driver reads pulses until a timeout, stores each in `raw` while
`actual < max_expect = (max_len + 1) * 8`, rounds the count down to a multiple of 8
(`actual &= ~7`), deserializes into `buf` and returns `actual / 8`.

`actual` is a C `int`; the model keeps it as 32 bits that wrap, as the Cortex-M adder does (in C
the overflow is undefined). Below `2^31` pulses nothing wraps (`leseSchleife_lauf`), and then
(`empfangen_eq`):
* `raw` holds the first `min N (8 (max_len + 1))` values `_read_byte` returned,
* the result does not depend on what `raw` held before (`deserialize` reads only what this call
  wrote),
* `buf` gets `min (N / 8) max_len` bytes, byte `k` from pulses `8 k … 8 k + 7`,
* and the result is `N / 8`, above `max_len` once `N ≥ 8 (max_len + 1)`.
At `2^31 + 1` pulses the counter has wrapped to `-2^31`, the guard `actual < max_expect` holds
again, and the last pulse is stored one past the array (`leseSchleife_ueberlauf`).

Up to seven pulses after a response are dropped by the rounding (`empfangen_nachlauf`, and for
the whole call `seReadResponse_nachlauf`); a stray pulse in front of it shifts every byte
(`seReadResponse_vorlauf`).
-/

namespace PassportSe

/-! ## 1. The model -/

/-- `_read_byte` on a received byte: `RDR & 0x7f` (a timeout ends the stream instead). -/
def readByte (rdr : Byte) : Byte := rdr &&& 0x7f

/-- The read loop of `se_read_response`, from `actual` and the bytes stored so far: each received
    byte is stored (`*(p++) = ch`) while `actual < max_expect`, and `actual++` counts every one. -/
def leseSchleife (maxExpect : Int) : List Byte → BitVec 32 → List Byte → BitVec 32 × List Byte
  | [], actual, raw => (actual, raw)
  | ch :: rest, actual, raw =>
    leseSchleife maxExpect rest (actual + 1)
      (if actual.toInt < maxExpect then raw ++ [readByte ch] else raw)

/-- What `se_read_response(buf, max_len)` makes of the bytes `rx` received before the timeout,
    with `raw` first holding `raw0`: the bytes written to `buf`, and `actual / 8`. (Its only
    caller passes `max_len = len + 3 ≤ 258`, so `(max_len + 1) * 8` does not overflow.) -/
def empfangen (raw0 : Speicher) (maxLen : Int) (rx : List Byte) : List Byte × Int :=
  let r := leseSchleife ((maxLen + 1) * 8) rx 0 []
  let actual := r.1 &&& ~~~7#32
  (deserialize (raw0.schreibe 0 r.2) actual.toInt maxLen, actual.toInt.tdiv 8)

/-- The counters `_read_byte` moves over one response: `rxne` for every byte, then `rtof`, or
    `notrxne` when the failsafe ended it. -/
def zaehleEmpfang (a : Antwort) (st : Stats) : Stats :=
  { st with
    rxne := st.rxne + BitVec.ofNat 32 a.pulse.length
    rtof := if a.failsafe then st.rtof else st.rtof + 1
    notrxne := if a.failsafe then st.notrxne + 1 else st.notrxne }

/-- `se_read_response(buf, max_len)`: `_send_bits(IOFLAG_TX)`, `_flush_rx()` (the answer
    `antwort` is what comes after it), the read loop and `deserialize`. -/
def seReadResponse (maxLen : Int) (s : Welt) : (List Byte × Int) × Welt :=
  let s₁ := s.sende (sendBits Ioflag.tx.wert)
  let a := s₁.antwort s₁.gelesen
  (empfangen s₁.stapel maxLen a.pulse,
    { s₁ with gelesen := s₁.gelesen + 1, stats := zaehleEmpfang a s₁.stats })

@[simp] theorem seReadResponse_fst (maxLen : Int) (s : Welt) :
    (seReadResponse maxLen s).1 = empfangen s.stapel maxLen (s.antwort s.gelesen).pulse := rfl

@[simp] theorem seReadResponse_tx (maxLen : Int) (s : Welt) :
    (seReadResponse maxLen s).2.tx = s.tx ++ sendBits Ioflag.tx.wert := rfl

@[simp] theorem seReadResponse_gelesen (maxLen : Int) (s : Welt) :
    (seReadResponse maxLen s).2.gelesen = s.gelesen + 1 := rfl

@[simp] theorem seReadResponse_antwort (maxLen : Int) (s : Welt) :
    (seReadResponse maxLen s).2.antwort = s.antwort := rfl

@[simp] theorem seReadResponse_stats (maxLen : Int) (s : Welt) :
    (seReadResponse maxLen s).2.stats = zaehleEmpfang (s.antwort s.gelesen) s.stats := rfl

@[simp] theorem seReadResponse_currentOpcode (maxLen : Int) (s : Welt) :
    (seReadResponse maxLen s).2.currentOpcode = s.currentOpcode := rfl

@[simp] theorem seReadResponse_stapel (maxLen : Int) (s : Welt) :
    (seReadResponse maxLen s).2.stapel = s.stapel := rfl

@[simp] theorem seReadResponse_befehle (maxLen : Int) (s : Welt) :
    (seReadResponse maxLen s).2.befehle = s.befehle := rfl

@[simp] theorem seReadResponse_zufall (maxLen : Int) (s : Welt) :
    (seReadResponse maxLen s).2.zufall = s.zufall := rfl

@[simp] theorem seReadResponse_gezogen (maxLen : Int) (s : Welt) :
    (seReadResponse maxLen s).2.gezogen = s.gezogen := rfl

/-! ## 2. The read loop -/

theorem leseSchleife_append (maxExpect : Int) (xs ys : List Byte) (actual : BitVec 32)
    (raw : List Byte) :
    leseSchleife maxExpect (xs ++ ys) actual raw =
      leseSchleife maxExpect ys (leseSchleife maxExpect xs actual raw).1
        (leseSchleife maxExpect xs actual raw).2 := by
  induction xs generalizing actual raw with
  | nil => rfl
  | cons ch xs ih => exact ih _ _

/-- A count below `2^31` reads back as itself. -/
theorem toInt_ofNat_klein {n : Nat} (h : n < 2 ^ 31) : (BitVec.ofNat 32 n).toInt = n := by
  rw [BitVec.toInt_eq_toNat_cond, BitVec.toNat_ofNat]
  split <;> omega

/-- **The read loop while `actual` does not wrap**: after the bytes `vor` and then `rx`, `actual`
    counts them all and `raw` holds the first `max_expect` of their values. -/
theorem leseSchleife_lauf (maxExpect : Int) (vor rx : List Byte)
    (h : vor.length + rx.length ≤ 2 ^ 31) :
    leseSchleife maxExpect rx (BitVec.ofNat 32 vor.length)
        ((vor.map readByte).take maxExpect.toNat) =
      (BitVec.ofNat 32 (vor.length + rx.length), ((vor ++ rx).map readByte).take maxExpect.toNat) := by
  induction rx generalizing vor with
  | nil => simp [leseSchleife]
  | cons ch rx ih =>
    have hv : vor.length < 2 ^ 31 := by simp at h; omega
    have e := ih (vor ++ [ch]) (by simp at h ⊢; omega)
    simp only [List.length_append, List.length_singleton, List.append_assoc, List.singleton_append]
      at e
    have hraw : (if (vor.length : Int) < maxExpect then
          (vor.map readByte).take maxExpect.toNat ++ [readByte ch]
        else (vor.map readByte).take maxExpect.toNat) =
        ((vor ++ [ch]).map readByte).take maxExpect.toNat := by
      by_cases hm : (vor.length : Int) < maxExpect
      · rw [if_pos hm, List.map_append, List.take_of_length_le (by simp; omega),
          List.take_of_length_le (by simp; omega)]
        rfl
      · rw [if_neg hm, List.map_append, List.take_append_eq_append_take,
          show maxExpect.toNat - (vor.map readByte).length = 0 by simp; omega]
        simp
    have hakt : BitVec.ofNat 32 vor.length + 1 = BitVec.ofNat 32 (vor.length + 1) := by
      rw [BitVec.ofNat_add]; rfl
    have hl : vor.length + 1 + rx.length = vor.length + (ch :: rx).length := by
      simp only [List.length_cons]; omega
    rw [leseSchleife, toInt_ofNat_klein hv, hraw, hakt, e, hl]

/-- **The wrap**: for `max_len = 4`, `2^31 + 1` pulses leave `41` bytes in the `40`-byte `raw`:
    at the last one `actual` has wrapped to `-2^31 < max_expect`. -/
theorem leseSchleife_ueberlauf :
    (leseSchleife ((4 + 1) * 8) (List.replicate (2 ^ 31 + 1) 0x7F) 0 []).2.length =
      (4 + 1) * 8 + 1 := by
  have e := leseSchleife_lauf ((4 + 1) * 8) [] (List.replicate (2 ^ 31) 0x7F)
    (by rw [List.length_replicate]; rfl)
  rw [List.length_nil, List.map_nil, List.take_nil, List.nil_append,
    List.length_replicate, Nat.zero_add] at e
  have hw : (BitVec.ofNat 32 (2 ^ 31)).toInt < (4 + 1) * 8 := by decide
  rw [List.replicate_succ', leseSchleife_append, show (0 : BitVec 32) = BitVec.ofNat 32 0 from rfl,
    e, leseSchleife, leseSchleife, if_pos hw, List.length_append, List.length_take,
    List.length_map, List.length_replicate]
  rfl

/-! ## 3. Below `2^31` pulses -/

/-- `actual &= ~7` on a count below `2^31`. -/
theorem runden_acht (N : Nat) (h : N < 2 ^ 31) :
    (BitVec.ofNat 32 N &&& ~~~7#32).toInt = 8 * ((N / 8 : Nat) : Int) := by
  have e : BitVec.ofNat 32 N &&& ~~~7#32 = BitVec.ofNat 32 (N >>> 3 <<< 3) := by
    apply BitVec.eq_of_getLsbD_eq
    intro i
    simp only [BitVec.getLsbD_and, BitVec.getLsbD_not, BitVec.getLsbD_ofNat, Nat.testBit_shiftLeft,
      Nat.testBit_shiftRight, i.isLt, decide_True, Bool.true_and]
    rw [show (7 : Nat) = 2 ^ 3 - 1 from rfl, Nat.testBit_two_pow_sub_one]
    by_cases h3 : (i : Nat) < 3
    · simp [h3]
    · simp [h3, show 3 + ((i : Nat) - 3) = i by omega, show 3 ≤ (i : Nat) by omega]
  rw [e, toInt_ofNat_klein (by rw [Nat.shiftLeft_eq, Nat.shiftRight_eq_div_pow]; omega),
    Nat.shiftLeft_eq, Nat.shiftRight_eq_div_pow]
  omega

/-- **`se_read_response` below `2^31` pulses**: byte `k` of `buf` from pulses `8 k … 8 k + 7` of
    what `_read_byte` returned, `min (N / 8) max_len` of them, whatever `raw` held before; the
    result is `N / 8`. -/
theorem empfangen_eq (raw0 : Speicher) (maxLen : Int) (h1 : 1 ≤ maxLen) (rx : List Byte)
    (hN : rx.length < 2 ^ 31) :
    empfangen raw0 maxLen rx =
      ((List.range (min (rx.length / 8) maxLen.toNat)).map
          (fun k => pulsByte (Speicher.ausListe (rx.map readByte)) (8 * k)),
        ((rx.length / 8 : Nat) : Int)) := by
  have e := leseSchleife_lauf ((maxLen + 1) * 8) [] rx (by simp; omega)
  simp only [List.length_nil, List.map_nil, List.take_nil, List.nil_append, Nat.zero_add] at e
  simp only [empfangen, show (0 : BitVec 32) = BitVec.ofNat 32 0 from rfl, e,
    runden_acht _ hN, Int.mul_tdiv_cancel_left _ (show (8 : Int) ≠ 0 by decide)]
  rw [deserialize_liest _ (Speicher.ausListe (rx.map readByte)) _ _ h1, deserialize_achtfach _ _ _ h1]
  intro j hj
  have hjN : j < rx.length := by omega
  have hjt : j < (List.take ((maxLen + 1) * 8).toNat (rx.map readByte)).length := by
    simp; omega
  rw [show j = 0 + j by omega, Speicher.schreibe_innen _ _ _ _ hjt, Nat.zero_add,
    Speicher.ausListe_getElem _ _ (by simpa using hjN)]
  simp

/-- **`se_read_response` keeps to its buffers below `2^31` pulses**: `raw` receives the first
    `8 (max_len + 1)` values `_read_byte` returned and nothing past them; the result does not
    depend on what `raw` held before; `buf` receives `min (N / 8) max_len` bytes, bit `i` of byte
    `k` set exactly when pulse `8 k + i` is `0x7E` or `0x7F`; and the result is `N / 8`, which
    exceeds `max_len` once `N ≥ 8 (max_len + 1)`. -/
theorem empfangen_begrenzt (raw0 raw1 : Speicher) (maxLen : Int) (h1 : 1 ≤ maxLen)
    (rx : List Byte) (hN : rx.length < 2 ^ 31) :
    (leseSchleife ((maxLen + 1) * 8) rx 0 []).2 =
        (rx.map readByte).take ((maxLen + 1) * 8).toNat ∧
      empfangen raw1 maxLen rx = empfangen raw0 maxLen rx ∧
      (empfangen raw0 maxLen rx).1.length = min (rx.length / 8) maxLen.toNat ∧
      (∀ k (hk : k < (empfangen raw0 maxLen rx).1.length) i, i < 8 →
        ((empfangen raw0 maxLen rx).1[k].getLsbD i ↔
          (Speicher.ausListe (rx.map readByte) (8 * k + i) = 0x7E ∨
            Speicher.ausListe (rx.map readByte) (8 * k + i) = 0x7F))) ∧
      (empfangen raw0 maxLen rx).2 = (rx.length / 8 : Nat) ∧
      ((maxLen + 1) * 8 ≤ rx.length → maxLen < (empfangen raw0 maxLen rx).2) := by
  have e := leseSchleife_lauf ((maxLen + 1) * 8) [] rx (by simp; omega)
  simp only [List.length_nil, List.map_nil, List.take_nil, List.nil_append, Nat.zero_add] at e
  rw [empfangen_eq raw0 maxLen h1 rx hN, empfangen_eq raw1 maxLen h1 rx hN,
    show (0 : BitVec 32) = BitVec.ofNat 32 0 from rfl, e]
  refine ⟨rfl, rfl, by simp, fun k hk i hi => ?_, rfl, fun h => by omega⟩
  simp only [List.getElem_map, List.getElem_range, pulsByte, deserializeByte_getLsbD _ hi,
    decide_eq_true_iff]

theorem empfangen_begrenzt_a5 : (1 : Int) ≤ 1 ∧ (sendBits 0xA5).length < 2 ^ 31 ∧
    (empfangen (fun _ => 0) 1 (sendBits 0xA5)).1.length = min ((sendBits 0xA5).length / 8) (1 : Int).toNat :=
  ⟨by decide, by decide,
    (empfangen_begrenzt (fun _ => 0) (fun _ => 0) 1 (by decide) (sendBits 0xA5) (by decide)).2.2.1⟩

/-- Nothing received: nothing written, `0`. -/
@[simp] theorem empfangen_nil (raw0 : Speicher) (maxLen : Int) : empfangen raw0 maxLen [] = ([], 0) := by
  simp [empfangen, leseSchleife, deserialize, deserializeLoop]

/-! ## 4. Stray pulses -/

theorem map_readByte_sendBits (b : Byte) : (sendBits b).map readByte = sendBits b := by
  simp only [sendBits, List.map_map]
  refine List.map_congr_left fun i _ => ?_
  simp only [Function.comp]
  split <;> rfl

/-- `_read_byte` passes the pulses `_send_bits` sends unchanged. -/
theorem map_readByte_flatMap_sendBits (B : List Byte) :
    (B.flatMap sendBits).map readByte = B.flatMap sendBits := by
  induction B with
  | nil => rfl
  | cons b B ih => rw [List.flatMap_cons, List.map_append, map_readByte_sendBits, ih]

/-- Two memories that agree on the pulses of `B` carry the same bits. -/
theorem traegtBits_congr {src src' : Speicher} {B : List Byte}
    (h : ∀ j, j < 8 * B.length → src j = src' j) (hB : TraegtBits src B) : TraegtBits src' B := by
  intro k hk i hi
  rw [← h _ (by omega)]
  exact hB k hk i hi

/-- **The bytes of a response, up to seven stray pulses after it**: the pulses of `R` followed by
    at most seven more give the first `max_len` bytes of `R` in `buf` and the result `|R|`. -/
theorem empfangen_flatMap (raw0 : Speicher) (maxLen : Int) (R q : List Byte) (h1 : 1 ≤ maxLen)
    (hR : R.length < 2 ^ 27) (hq : q.length ≤ 7) :
    empfangen raw0 maxLen (R.flatMap sendBits ++ q) = (R.take maxLen.toNat, (R.length : Int)) := by
  have hl : (R.flatMap sendBits ++ q).length = 8 * R.length + q.length := by
    rw [List.length_append, flatMap_sendBits_length]
  have hdiv : (8 * R.length + q.length) / 8 = R.length := by omega
  rw [empfangen_eq raw0 maxLen h1 _ (by omega), hl, hdiv]
  have ht : TraegtBits (Speicher.ausListe ((R.flatMap sendBits ++ q).map readByte)) R := by
    refine traegtBits_congr (fun j hj => ?_) (traegtBits_flatMap_sendBits R)
    have hj' : j < (R.flatMap sendBits).length := by rw [flatMap_sendBits_length]; exact hj
    rw [List.map_append, map_readByte_flatMap_sendBits, Speicher.ausListe_getElem _ _ hj',
      Speicher.ausListe_getElem _ _
        (by simp only [List.length_append, List.length_map, flatMap_sendBits_length]; omega),
      List.getElem_append_left hj']
  refine Prod.ext (List.ext_getElem (by simp [Nat.min_comm]) fun k hk _ => ?_) rfl
  simp only [List.getElem_map, List.getElem_range, List.getElem_take]
  exact pulsByte_of_traegtBits ht (by simp at hk; omega)

/-- **Up to seven trailing pulses are harmless**: a response `R` of `1 … max_len` bytes followed by
    at most seven stray pulses gives `buf = R` and the result `|R|`. -/
theorem empfangen_nachlauf (raw0 : Speicher) (maxLen : Int) (R q : List Byte)
    (h1 : 1 ≤ R.length) (hR : (R.length : Int) ≤ maxLen) (hmax : maxLen ≤ 258) (hq : q.length ≤ 7) :
    empfangen raw0 maxLen (R.flatMap sendBits ++ q) = (R, (R.length : Int)) := by
  rw [empfangen_flatMap raw0 maxLen R q (by omega) (by omega) hq, List.take_of_length_le (by omega)]

/-- **`se_read_response` tolerates a trailing partial byte**: when the answer is the pulses of a
    response `R` of `1 … max_len` bytes followed by at most seven stray pulses, it returns `|R|`
    and writes `R` to `buf`. -/
theorem seReadResponse_nachlauf (maxLen : Int) (s : Welt) (R q : List Byte) (h1 : 1 ≤ R.length)
    (hR : (R.length : Int) ≤ maxLen) (hmax : maxLen ≤ 258) (hq : q.length ≤ 7)
    (ha : (s.antwort s.gelesen).pulse = R.flatMap sendBits ++ q) :
    (seReadResponse maxLen s).1 = (R, (R.length : Int)) := by
  rw [seReadResponse_fst, ha, empfangen_nachlauf _ _ R q h1 hR hmax hq]

theorem seReadResponse_nachlauf_a5 : ([0x7F] : List Byte).length ≤ 7 ∧
    (seReadResponse 4 (Welt.start (fun _ => ⟨[0xA5].flatMap sendBits ++ [0x7F], false⟩)
      (fun _ => 0) (fun _ => 0))).1 = ([0xA5], 1) :=
  ⟨by decide, seReadResponse_nachlauf 4 _ [0xA5] [0x7F] (by decide) (by decide) (by decide)
    (by decide) rfl⟩

/-- **A stray pulse in front shifts the bytes**: with one pulse `0x7F` before the response
    `[0x00]`, `se_read_response(buf, 4)` returns `1` with `buf[0] = 0x01`. -/
theorem seReadResponse_vorlauf :
    (seReadResponse 4 (Welt.start
      (fun _ => ⟨[0x7F] ++ sendSerialized (Speicher.ausListe [0x00]) 1, false⟩)
      (fun _ => 0) (fun _ => 0))).1 = ([0x01], 1) := by
  decide

end PassportSe
