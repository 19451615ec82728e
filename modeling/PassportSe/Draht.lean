import PassportSe.Befehl

/-!
# The wire as the chip reads it

Everything `se.c` says to the chip is in the bytes it writes to `TDR` (`Welt.tx`): the zero byte
of `se_wake`, and logical bytes as eight pulses each (`_send_bits`) -- the flags `IOFLAG_TX`,
`IOFLAG_IDLE` and `IOFLAG_SLEEP`, and the frames `se_write` sends, `IOFLAG_CMD` first. This file
models the other end of the wire: `dekodiere` reads such a stream back into the events
(`Ereignis`) it carries -- a zero byte is the wake byte, every other byte starts eight pulses,
`IOFLAG_CMD` is followed by a count byte and as many frame bytes as it counts, and a frame is
taken only when `check_crc` accepts it.

* `Ereignis.kodiere` -- the bytes the driver sends for an event, a command as its frame `rahmen`;
* `zeichen_kodiere`, `lesen_flatMap` -- the two layers of the decoder, pulses and frames;
* **`dekodiere_iff`** -- the wire format is unambiguous: the decoder reads back every list of
  well-formed events (no command body over 248 bytes) from its bytes, and accepts nothing else --
  a stream it reads is the bytes of the well-formed events it returns.
-/

namespace PassportSe

/-! ## 1. Events and their bytes -/

/-- What the driver says on the wire: the wake byte, a flag, or a command. -/
inductive Ereignis where
  | wecken
  | flagge (f : Ioflag)
  | befehl (c : Befehl)
  deriving DecidableEq, Repr

/-- The bytes `se.c` writes to `TDR` for an event: the zero byte of `se_wake`, the eight pulses of a
    flag (`_send_bits`), the pulses of a command's frame (`se_write`, after its wake byte). -/
def Ereignis.kodiere : Ereignis → List Byte
  | .wecken => [0x00]
  | .flagge f => sendBits f.wert
  | .befehl c => (rahmen c.opcode c.p1 c.p2 c.body).flatMap sendBits

/-- A well-formed event: `IOFLAG_CMD` only opens a frame, and a body has at most 248 bytes, so
    that `framed_len = |body| + 7` fits its byte. -/
def Ereignis.gueltig : Ereignis → Prop
  | .wecken => True
  | .flagge f => f ≠ .cmd
  | .befehl c => c.body.length ≤ 248

instance (e : Ereignis) : Decidable e.gueltig :=
  match e with
  | .wecken => isTrue trivial
  | .flagge f => inferInstanceAs (Decidable (f ≠ .cmd))
  | .befehl c => inferInstanceAs (Decidable (c.body.length ≤ 248))

/-- The command an event carries. -/
def Ereignis.befehl? : Ereignis → Option Befehl
  | .befehl c => some c
  | _ => none

/-! ## 2. The chip's side -/

/-- What the chip reads off the wire: the wake byte, or a logical byte. -/
inductive Zeichen where
  | wecken
  | byte (b : Byte)
  deriving DecidableEq, Repr

/-- The bytes of a symbol on the wire. -/
def Zeichen.kodiere : Zeichen → List Byte
  | .wecken => [0x00]
  | .byte b => sendBits b

/-- Eight pulses as the chip reads them: each is `BIT0` or `BIT1`, and pulse `i` is bit `i`. -/
def ausPulsen (ps : List Byte) : Option Byte :=
  if ∀ p ∈ ps, p = BIT0 ∨ p = BIT1 then some (pulsByte (Speicher.ausListe ps) 0) else none

/-- The wire, symbol by symbol: a zero byte is the wake byte, any other starts eight pulses. -/
def zeichen : List Byte → Option (List Zeichen)
  | [] => some []
  | p0 :: r =>
    if p0 = 0 then (Zeichen.wecken :: ·) <$> zeichen r
    else
      match r with
      | p1 :: p2 :: p3 :: p4 :: p5 :: p6 :: p7 :: r' =>
        (ausPulsen [p0, p1, p2, p3, p4, p5, p6, p7]).bind fun b => (Zeichen.byte b :: ·) <$> zeichen r'
      | _ => none

/-- The next `n` logical bytes, with no wake byte among them. -/
def nimm : Nat → List Zeichen → Option (List Byte × List Zeichen)
  | 0, z => some ([], z)
  | n + 1, .byte b :: z => (nimm n z).map fun r => (b :: r.1, r.2)
  | _ + 1, _ => none

/-- A frame from its count byte on, as the chip takes it: the count is its length, at least seven,
    and `check_crc` accepts it; the command, with `p2` little-endian and the body between the
    header and the CRC. -/
def rahmenLesen : List Byte → Option Befehl
  | n :: op :: p1 :: lo :: hi :: rest =>
    if rest.length + 5 = n.toNat ∧ 7 ≤ n.toNat ∧ checkCrc (Speicher.ausListe (n :: op :: p1 :: lo :: hi :: rest)) n
    then some ⟨op, p1, BitVec.ofNat 16 (lo.toNat + 256 * hi.toNat), rest.take (rest.length - 2)⟩
    else none
  | _ => none

/-- The flag a logical byte outside a frame stands for. -/
def flaggeVon (b : Byte) : Option Ioflag :=
  if b = Ioflag.tx.wert then some .tx
  else if b = Ioflag.idle.wert then some .idle
  else if b = Ioflag.sleep.wert then some .sleep
  else none

/-- The events of a stream of symbols, at most `fuel` of them. -/
def lesen : Nat → List Zeichen → Option (List Ereignis)
  | _, [] => some []
  | 0, _ :: _ => none
  | fuel + 1, .wecken :: z => (Ereignis.wecken :: ·) <$> lesen fuel z
  | fuel + 1, .byte b :: z =>
    if b = Ioflag.cmd.wert then
      match z with
      | .byte n :: z =>
        (nimm (n.toNat - 1) z).bind fun r =>
          (rahmenLesen (n :: r.1)).bind fun c => (Ereignis.befehl c :: ·) <$> lesen fuel r.2
      | _ => none
    else (flaggeVon b).bind fun f => (Ereignis.flagge f :: ·) <$> lesen fuel z

/-- **The chip's reading of the wire**: the symbols, then the events -- at most one per symbol. -/
def dekodiere (l : List Byte) : Option (List Ereignis) :=
  (zeichen l).bind fun z => lesen z.length z

/-- The symbols of an event. -/
def Ereignis.zeichen : Ereignis → List Zeichen
  | .wecken => [.wecken]
  | .flagge f => [.byte f.wert]
  | .befehl c => (rahmen c.opcode c.p1 c.p2 c.body).map .byte

theorem Ereignis.kodiere_eq (e : Ereignis) : e.kodiere = e.zeichen.flatMap Zeichen.kodiere := by
  cases e <;> simp [Ereignis.kodiere, Ereignis.zeichen, Zeichen.kodiere, List.flatMap_map]

/-! ## 3. Pulses -/

theorem zeichen_null (r : List Byte) : zeichen (0 :: r) = (Zeichen.wecken :: ·) <$> zeichen r := by
  rw [zeichen.eq_def]; rfl

theorem zeichen_puls {p0 : Byte} (h0 : p0 ≠ 0) (p1 p2 p3 p4 p5 p6 p7 : Byte) (r : List Byte) :
    zeichen (p0 :: p1 :: p2 :: p3 :: p4 :: p5 :: p6 :: p7 :: r) =
      (ausPulsen [p0, p1, p2, p3, p4, p5, p6, p7]).bind fun b => (Zeichen.byte b :: ·) <$> zeichen r := by
  rw [zeichen, if_neg h0]

theorem ausPulsen_sendBits (b : Byte) : ausPulsen (sendBits b) = some b := by
  have hb := pulsByte_of_traegtBits (traegtBits_flatMap_sendBits [b]) (k := 0) (by simp)
  simp only [List.flatMap_cons, List.flatMap_nil, List.append_nil, Nat.mul_zero,
    List.getElem_cons_zero] at hb
  rw [ausPulsen, if_pos, hb]
  intro p hp
  simp only [sendBits, List.mem_map] at hp
  obtain ⟨i, -, rfl⟩ := hp
  split <;> simp

/-- Eight pulses the chip takes are the pulses `_send_bits` sends for their byte. -/
theorem eq_sendBits_of_ausPulsen {ps : List Byte} {b : Byte} (h8 : ps.length = 8)
    (h : ausPulsen ps = some b) : ps = sendBits b := by
  unfold ausPulsen at h
  split at h
  · next hp =>
    cases h
    refine List.ext_getElem (by simp [h8]) fun i h1 h2 => ?_
    rw [getElem_sendBits, pulsByte, deserializeByte_getLsbD _ (by omega), Nat.zero_add,
      Speicher.ausListe_getElem _ _ h1]
    rcases hp _ (List.getElem_mem h1) with e | e <;> rw [e] <;> decide
  · cases h

theorem zeichen_sendBits_append (b : Byte) (l : List Byte) :
    zeichen (sendBits b ++ l) = (Zeichen.byte b :: ·) <$> zeichen l := by
  have h := ausPulsen_sendBits b
  obtain ⟨q0, q1, q2, q3, q4, q5, q6, q7, e⟩ :
      ∃ q0 q1 q2 q3 q4 q5 q6 q7, sendBits b = [q0, q1, q2, q3, q4, q5, q6, q7] :=
    ⟨_, _, _, _, _, _, _, _, rfl⟩
  have h0 : q0 ≠ 0 := by
    have : q0 ∈ sendBits b := by simp [e]
    simp only [sendBits, List.mem_map] at this
    obtain ⟨i, -, rfl⟩ := this
    split <;> decide
  rw [e] at h ⊢
  exact (zeichen_puls h0 _ _ _ _ _ _ _ l).trans (by rw [h]; rfl)

/-- The symbols of a stream of events, read off its bytes. -/
theorem zeichen_kodiere_append (e : Ereignis) (l : List Byte) :
    zeichen (e.kodiere ++ l) = (e.zeichen ++ ·) <$> zeichen l := by
  have hB : ∀ B : List Byte, zeichen (B.flatMap sendBits ++ l) = (B.map .byte ++ ·) <$> zeichen l := by
    intro B
    induction B with
    | nil => simp
    | cons b B ih =>
      rw [List.flatMap_cons, List.append_assoc, zeichen_sendBits_append, ih]
      cases zeichen l <;> rfl
  cases e with
  | wecken => exact zeichen_null l
  | flagge f => exact zeichen_sendBits_append _ l
  | befehl c => exact hB _

theorem zeichen_kodiere (es : List Ereignis) :
    zeichen (es.flatMap Ereignis.kodiere) = some (es.flatMap Ereignis.zeichen) := by
  induction es with
  | nil => rfl
  | cons e es ih => rw [List.flatMap_cons, zeichen_kodiere_append, ih]; rfl

/-- A stream of symbols the chip reads is the bytes of its symbols. -/
theorem eq_kodiere_of_zeichen {l : List Byte} {z : List Zeichen} (h : zeichen l = some z) :
    l = z.flatMap Zeichen.kodiere := by
  induction l using zeichen.induct generalizing z with
  | case1 => cases h; rfl
  | case2 r ih =>
    rw [zeichen_null] at h
    cases hr : zeichen r with
    | none => rw [hr] at h; cases h
    | some z' => rw [hr] at h; cases h; rw [ih hr]; rfl
  | case3 p0 h0 p1 p2 p3 p4 p5 p6 p7 r ih =>
    rw [zeichen_puls h0] at h
    cases hp : ausPulsen [p0, p1, p2, p3, p4, p5, p6, p7] with
    | none => rw [hp] at h; cases h
    | some b =>
      rw [hp, Option.some_bind] at h
      cases hr : zeichen r with
      | none => rw [hr] at h; cases h
      | some z' =>
        rw [hr] at h
        cases h
        rw [List.flatMap_cons, Zeichen.kodiere, ← @eq_sendBits_of_ausPulsen [p0, p1, p2, p3, p4, p5, p6, p7] b rfl hp,
          ih hr]
        rfl
  | case4 p0 r h0 hr =>
    rw [zeichen.eq_def] at h
    simp only [if_neg h0] at h
    cases h

/-! ## 4. Frames -/

/-- The frame of a command is `IOFLAG_CMD`, then the header from `framed_len` on and the body with
    the CRC appended -- as the chip appends it to its own answers. -/
theorem rahmen_eq_mitCrc (op p1 : Byte) (p2 : BitVec 16) (body : List Byte) :
    rahmen op p1 p2 body = 0x77 :: mitCrc ([BitVec.ofNat 8 (body.length + 7), op, p1,
      BitVec.ofNat 8 (p2.toNat % 256), BitVec.ofNat 8 (p2.toNat / 256)] ++ body) := by
  have hl : ([BitVec.ofNat 8 (body.length + 7), op, p1, BitVec.ofNat 8 (p2.toNat % 256),
      BitVec.ofNat 8 (p2.toNat / 256)] ++ body).length = body.length + 5 := by simp
  simp only [rahmen, mitCrc, hl]
  rfl

/-- `check_crc` accepts exactly the frames that end in their own CRC. -/
theorem eq_mitCrc_of_checkCrc {F : List Byte} {n : Byte} (hl : F.length = n.toNat)
    (h2 : 2 ≤ n.toNat) (h : checkCrc (Speicher.ausListe F) n = true) :
    F = mitCrc (F.take (n.toNat - 2)) := by
  rw [checkCrc_eq _ _ h2, Speicher.lies_ausListe_take _ _ (by omega)] at h
  obtain ⟨-, hc⟩ := h
  -- named bounds keep the proofs inside `F[_]` small for the rewrites below
  have i1 : n.toNat - 2 < F.length := by omega
  have i2 : n.toNat - 2 + 1 < F.length := by omega
  have i3 : n.toNat - 1 < F.length := by omega
  have ht : (F.take (n.toNat - 2)).length = n.toNat - 2 := by simp; omega
  have hd : F.drop (n.toNat - 2) = [F[n.toNat - 2], F[n.toNat - 1]] := by
    rw [List.drop_eq_getElem_cons i1, List.drop_eq_getElem_cons i2,
      List.drop_eq_nil_of_le (by omega)]
    simp only [show n.toNat - 2 + 1 = n.toNat - 1 by omega]
  rw [Speicher.ausListe_getElem _ _ i1, Speicher.ausListe_getElem _ _ i3] at hc
  conv_lhs => rw [← List.take_append_drop (n.toNat - 2) F, hd]
  have hlies : (Speicher.ausListe (F.take (n.toNat - 2))).lies 0 (n.toNat - 2) = F.take (n.toNat - 2) := by
    conv_lhs => arg 3; rw [← ht]
    exact Speicher.lies_ausListe _
  rw [mitCrc, seCrc16Chain_eq, ht, BitVec.toNat_ofNat, Nat.mod_eq_of_lt (by have := n.isLt; omega),
    hlies, register_null, hc, registerBytes_register]

/-- `p2` from its two bytes. -/
theorem p2_ofBytes (p2 : BitVec 16) :
    BitVec.ofNat 16 ((BitVec.ofNat 8 (p2.toNat % 256)).toNat +
      256 * (BitVec.ofNat 8 (p2.toNat / 256)).toNat) = p2 := by
  apply BitVec.eq_of_toNat_eq
  have := p2.isLt
  simp only [BitVec.toNat_ofNat]
  omega

/-- **The chip takes the frame of a command** with a body of at most 248 bytes. -/
theorem rahmenLesen_rahmen (c : Befehl) (h : c.body.length ≤ 248) :
    rahmenLesen (rahmen c.opcode c.p1 c.p2 c.body).tail = some c := by
  set x := [BitVec.ofNat 8 (c.body.length + 7), c.opcode, c.p1, BitVec.ofNat 8 (c.p2.toNat % 256),
    BitVec.ofNat 8 (c.p2.toNat / 256)] ++ c.body with hx
  have hxl : x.length = c.body.length + 5 := by simp [hx]
  have hn : (BitVec.ofNat 8 (c.body.length + 7)).toNat = c.body.length + 7 := by
    simp only [BitVec.toNat_ofNat]; omega
  have hc := checkCrc_mitCrc x (by omega) (by rw [hxl, hx]; rfl)
  rw [hxl] at hc
  obtain ⟨c0, c1, e⟩ : ∃ c0 c1, mitCrc x = x ++ [c0, c1] := ⟨_, _, rfl⟩
  rw [rahmen_eq_mitCrc, List.tail_cons, e]
  rw [e] at hc
  simp only [hx, List.cons_append, List.nil_append] at hc ⊢
  rw [rahmenLesen, if_pos ⟨by simp [hn], by omega, hc⟩, p2_ofBytes]
  simp

/-- A frame the chip takes is the frame of its command, `IOFLAG_CMD` put back, and its body has
    at most 248 bytes. -/
theorem rahmen_of_rahmenLesen {F : List Byte} {c : Befehl} (h : rahmenLesen F = some c) :
    0x77 :: F = rahmen c.opcode c.p1 c.p2 c.body ∧ c.body.length ≤ 248 := by
  match F, h with
  | n :: op :: p1 :: lo :: hi :: rest, h =>
    rw [rahmenLesen] at h
    split at h
    · next hb =>
      obtain ⟨hl, h7, hc⟩ := hb
      cases h
      have hn := n.isLt
      have hF := eq_mitCrc_of_checkCrc (by simp; omega) (by omega) hc
      have ht : (n :: op :: p1 :: lo :: hi :: rest).take (n.toNat - 2) =
          [n, op, p1, lo, hi] ++ rest.take (rest.length - 2) := by
        rw [show n.toNat - 2 = (rest.length - 2) + 5 by omega]
        rfl
      have hlo := lo.isLt
      have hhi := hi.isLt
      have hk : [BitVec.ofNat 8 ((rest.take (rest.length - 2)).length + 7), op, p1,
          BitVec.ofNat 8 ((BitVec.ofNat 16 (lo.toNat + 256 * hi.toNat)).toNat % 256),
          BitVec.ofNat 8 ((BitVec.ofNat 16 (lo.toNat + 256 * hi.toNat)).toNat / 256)] =
          [n, op, p1, lo, hi] := by
        simp only [List.cons.injEq, and_true, true_and]
        refine ⟨?_, ?_, ?_⟩ <;> apply BitVec.eq_of_toNat_eq <;>
          simp only [List.length_take, BitVec.toNat_ofNat] <;> omega
      refine ⟨?_, by simp; omega⟩
      rw [rahmen_eq_mitCrc]
      dsimp only
      rw [hk, ← ht, ← hF]
    · cases h

/-! ## 5. Events -/

@[simp] theorem nimm_map (bs : List Byte) (z : List Zeichen) :
    nimm bs.length (bs.map .byte ++ z) = some (bs, z) := by
  induction bs with
  | nil => rfl
  | cons b bs ih => simp [nimm, ih]

theorem nimm_eq_some : ∀ {n : Nat} {z : List Zeichen} {bs : List Byte} {z' : List Zeichen},
    nimm n z = some (bs, z') → z = bs.map .byte ++ z' ∧ bs.length = n
  | 0, _, _, _, h => by cases h; simp
  | n + 1, .byte b :: z, bs, z', h => by
    rw [nimm] at h
    cases hr : nimm n z with
    | none => rw [hr] at h; cases h
    | some r =>
      rw [hr] at h
      cases h
      obtain ⟨e, hl⟩ := nimm_eq_some hr
      exact ⟨by rw [e]; rfl, by simp [hl]⟩
  | _ + 1, [], _, _, h => by cases h
  | _ + 1, .wecken :: _, _, _, h => by cases h

theorem flaggeVon_eq_some {b : Byte} {f : Ioflag} (h : flaggeVon b = some f) :
    b = f.wert ∧ f ≠ .cmd := by
  unfold flaggeVon at h
  split_ifs at h with h1 h2 h3 <;> cases h <;> exact ⟨by assumption, by decide⟩

/-- One well-formed event read off the front of a stream of symbols. -/
theorem lesen_append {e : Ereignis} (he : e.gueltig) (fuel : Nat) (z : List Zeichen) :
    lesen (fuel + 1) (e.zeichen ++ z) = (e :: ·) <$> lesen fuel z := by
  cases e with
  | wecken => rfl
  | flagge f => cases f <;> first | exact absurd rfl he | rfl
  | befehl c =>
    have h248 : c.body.length ≤ 248 := he
    have hr := rahmenLesen_rahmen c he
    obtain ⟨t, ht, hl⟩ : ∃ t, rahmen c.opcode c.p1 c.p2 c.body =
        0x77 :: BitVec.ofNat 8 (c.body.length + 7) :: t ∧ t.length = c.body.length + 6 :=
      ⟨_, by rw [rahmen_eq_mitCrc]; rfl, by simp [mitCrc]⟩
    have hn : (BitVec.ofNat 8 (c.body.length + 7)).toNat - 1 = t.length := by
      simp only [BitVec.toNat_ofNat]; omega
    rw [ht, List.tail_cons] at hr
    simp only [Ereignis.zeichen, ht, List.map_cons, List.cons_append]
    rw [lesen, if_pos (show (0x77 : Byte) = Ioflag.cmd.wert from rfl)]
    simp only [hn, nimm_map, Option.some_bind, hr]

theorem length_le_flatMap_zeichen (es : List Ereignis) :
    es.length ≤ (es.flatMap Ereignis.zeichen).length := by
  induction es with
  | nil => simp
  | cons e es ih =>
    have : 1 ≤ e.zeichen.length := by
      cases e <;> simp [Ereignis.zeichen, rahmen_eq_mitCrc]
    simp only [List.flatMap_cons, List.length_append, List.length_cons]
    omega

/-- Well-formed events are read back from their symbols, given fuel for each. -/
theorem lesen_flatMap (es : List Ereignis) (h : ∀ e ∈ es, e.gueltig) (fuel : Nat)
    (hf : es.length ≤ fuel) : lesen fuel (es.flatMap Ereignis.zeichen) = some es := by
  induction es generalizing fuel with
  | nil => cases fuel <;> rfl
  | cons e es ih =>
    obtain ⟨f, rfl⟩ : ∃ f, fuel = f + 1 := ⟨fuel - 1, by simp at hf; omega⟩
    rw [List.flatMap_cons, lesen_append (h e (List.mem_cons_self e es)),
      ih (fun e' he' => h e' (List.mem_cons_of_mem e he')) f (by simp at hf; omega)]
    rfl

/-- What the chip reads from a stream of symbols is well-formed events whose symbols they are. -/
theorem lesen_eq_some : ∀ {fuel : Nat} {z : List Zeichen} {es : List Ereignis},
    lesen fuel z = some es → z = es.flatMap Ereignis.zeichen ∧ ∀ e ∈ es, e.gueltig
  | _, [], _, h => by rw [lesen] at h; cases h; simp
  | 0, _ :: _, _, h => by cases h
  | fuel + 1, .wecken :: z, es, h => by
    rw [lesen] at h
    cases hr : lesen fuel z with
    | none => rw [hr] at h; cases h
    | some es' =>
      rw [hr] at h
      cases h
      obtain ⟨e, g⟩ := lesen_eq_some hr
      exact ⟨by rw [e]; rfl, by simpa [Ereignis.gueltig] using g⟩
  | fuel + 1, .byte b :: z, es, h => by
    rw [lesen.eq_def] at h
    dsimp only at h
    split at h
    · next hb =>
      split at h
      · next n z =>
        cases hn : nimm (n.toNat - 1) z with
        | none => rw [hn] at h; cases h
        | some r =>
          rw [hn, Option.some_bind] at h
          cases hc : rahmenLesen (n :: r.1) with
          | none => rw [hc] at h; cases h
          | some c =>
            rw [hc, Option.some_bind] at h
            cases hr : lesen fuel r.2 with
            | none => rw [hr] at h; cases h
            | some es' =>
              rw [hr] at h
              cases h
              obtain ⟨ez, g⟩ := lesen_eq_some hr
              obtain ⟨er, -⟩ := nimm_eq_some hn
              obtain ⟨ef, hg⟩ := rahmen_of_rahmenLesen hc
              refine ⟨?_, ?_⟩
              · rw [List.flatMap_cons, Ereignis.zeichen, ← ef, er, ez, hb]
                rfl
              · simpa [Ereignis.gueltig, hg] using g
      · cases h
    · cases hf : flaggeVon b with
      | none => rw [hf] at h; cases h
      | some f =>
        rw [hf, Option.some_bind] at h
        cases hr : lesen fuel z with
        | none => rw [hr] at h; cases h
        | some es' =>
          rw [hr] at h
          cases h
          obtain ⟨ez, g⟩ := lesen_eq_some hr
          obtain ⟨eb, hne⟩ := flaggeVon_eq_some hf
          exact ⟨by rw [ez, eb]; rfl, by simpa [Ereignis.gueltig, hne] using g⟩

/-! ## 6. The round trip -/

/-- Well-formed events are read back from their bytes. -/
theorem dekodiere_kodiere (es : List Ereignis) (h : ∀ e ∈ es, e.gueltig) :
    dekodiere (es.flatMap Ereignis.kodiere) = some es := by
  rw [dekodiere, zeichen_kodiere, Option.some_bind]
  exact lesen_flatMap es h _ (length_le_flatMap_zeichen es)

/-- **The wire format is unambiguous**: the chip reads a stream as the events `es` exactly when
    `es` are well-formed -- `IOFLAG_CMD` only in front of a frame, no body over 248 bytes -- and
    the stream is their bytes. So every well-formed stream of events is read back from its bytes,
    and the chip accepts no other stream. -/
theorem dekodiere_iff (l : List Byte) (es : List Ereignis) :
    dekodiere l = some es ↔ (∀ e ∈ es, e.gueltig) ∧ l = es.flatMap Ereignis.kodiere := by
  constructor
  · intro h
    unfold dekodiere at h
    cases hz : zeichen l with
    | none => rw [hz] at h; cases h
    | some z =>
      rw [hz, Option.some_bind] at h
      obtain ⟨ez, g⟩ := lesen_eq_some h
      refine ⟨g, ?_⟩
      rw [eq_kodiere_of_zeichen hz, ez, List.flatMap_assoc]
      exact List.flatMap_congr fun e _ => (Ereignis.kodiere_eq e).symm
  · rintro ⟨g, rfl⟩
    exact dekodiere_kodiere es g

end PassportSe
