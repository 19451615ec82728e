import Mathlib.Tactic.Ring
import PassportSe.Draht
import PassportSe.Schreiben

/-!
# Stretches of a run: what the driver sends, reads and counts

Each function of `se.c` takes the world from one state to another. `Verlauf s s'` says what any
such stretch does, and it is kept by every function and by their composition:

* the bytes put on the wire are those of well-formed events `es` (`Spur`) -- so the chip reads
  them back (`dekodiere_iff`); the commands among them are the ones logged, and every answer
  taken was asked for by one `IOFLAG_TX` among them;
* the answers on the wire are untouched;
* the counters keep their books (`Buchhaltung`): each retry of `se_read` counted once under its
  cause, each answer read counted once by how it ended, and `rxne` the bytes of those answers.

The one exception is `se_write` with `data_len > 248`, whose `framed_len` wraps (`seWrite_verlauf`
asks for less). One lemma per function, from `se_read` up to `se_encrypted_write`; each cites the
lemmas of the functions it calls. The same lemmas give `Schlafend` (section 5): every exchange
sends `IOFLAG_SLEEP` last, on its failure paths too.
-/

namespace PassportSe

/-! ## 1. The counters' books -/

/-- The bytes of the answers `0 .. n-1`. -/
def antwortBytes (a : Nat → Antwort) (n : Nat) : Nat :=
  ((List.range n).map fun j => (a j).pulse.length).sum

/-- The retries of `se_read` not yet counted by `ln_retry`: the causes counted, less the chip
    errors (which end `se_read` without a retry), less `ln_retry`. -/
def offen (st : Stats) : BitVec 32 :=
  st.notReadyN + st.shortError + st.lenError + st.crcErrors - st.lnRetry - st.lenErrorTwo

/-- **The books of `se.c`'s counters**, modulo `2^32`: every retry of `se_read` (`ln_retry`) is
    counted under one cause -- `not_ready_n`, `short_error`, `len_error`, `crc_errors` -- and a
    chip error (`len_error_two`) under `len_error` as well; every answer read is counted once, by
    `rtof` or `notrxne`; and `rxne` counts the bytes of the answers read. -/
structure Buchhaltung (s : Welt) : Prop where
  wiederholungen : s.stats.lnRetry + s.stats.lenErrorTwo =
    s.stats.notReadyN + s.stats.shortError + s.stats.lenError + s.stats.crcErrors
  antworten : s.stats.rtof + s.stats.notrxne = BitVec.ofNat 32 s.gelesen
  bytes : s.stats.rxne = BitVec.ofNat 32 (antwortBytes s.antwort s.gelesen)

theorem wiederholungen_iff (st : Stats) :
    st.lnRetry + st.lenErrorTwo = st.notReadyN + st.shortError + st.lenError + st.crcErrors ↔
      offen st = 0 := by
  rw [offen, sub_sub, sub_eq_zero, eq_comm]

/-- At reset the books are empty. -/
theorem buchhaltung_start (a : Nat → Antwort) (z : Nat → Byte) (m : Speicher) :
    Buchhaltung (Welt.start a z m) :=
  ⟨rfl, rfl, rfl⟩

theorem antwortBytes_succ (a : Nat → Antwort) (n : Nat) :
    antwortBytes a (n + 1) = antwortBytes a n + (a n).pulse.length := by
  simp [antwortBytes, List.range_succ]

/-! ## 2. Stretches -/

/-- From `s` to `s'` the driver sent the bytes of the well-formed events `es`, logged their
    commands, and took one answer for each `IOFLAG_TX` among them. -/
structure Spur (s s' : Welt) (es : List Ereignis) : Prop where
  gueltig : ∀ e ∈ es, e.gueltig
  tx : s'.tx = s.tx ++ es.flatMap Ereignis.kodiere
  befehle : s'.befehle = s.befehle ++ es.filterMap Ereignis.befehl?
  gelesen : s'.gelesen = s.gelesen + es.count (.flagge .tx)

/-- A stretch of a run of the driver. -/
structure Verlauf (s s' : Welt) : Prop where
  spur : ∃ es, Spur s s' es
  antwort : s'.antwort = s.antwort
  buchhaltung : Buchhaltung s → Buchhaltung s'

theorem Spur.trans {s s' s'' : Welt} {es es' : List Ereignis} (h : Spur s s' es)
    (h' : Spur s' s'' es') : Spur s s'' (es ++ es') where
  gueltig e he := (List.mem_append.mp he).elim (h.gueltig e) (h'.gueltig e)
  tx := by rw [h'.tx, h.tx, List.flatMap_append, List.append_assoc]
  befehle := by rw [h'.befehle, h.befehle, List.filterMap_append, List.append_assoc]
  gelesen := by rw [h'.gelesen, h.gelesen, List.count_append, Nat.add_assoc]

/-- Counting changes nothing on the wire. -/
theorem Spur.zaehle {s s' : Welt} {es : List Ereignis} (h : Spur s s' es) (f : Stats → Stats) :
    Spur s (s'.zaehle f) es :=
  ⟨h.gueltig, h.tx, h.befehle, h.gelesen⟩

theorem Verlauf.trans {s s' s'' : Welt} (h : Verlauf s s') (h' : Verlauf s' s'') :
    Verlauf s s'' where
  spur := by
    obtain ⟨es, e⟩ := h.spur
    obtain ⟨es', e'⟩ := h'.spur
    exact ⟨_, e.trans e'⟩
  antwort := h'.antwort.trans h.antwort
  buchhaltung := h'.buchhaltung ∘ h.buchhaltung

/-- Nothing sent, logged or read, and the books kept. -/
theorem Verlauf.still {s s' : Welt} (htx : s'.tx = s.tx) (hb : s'.befehle = s.befehle)
    (hg : s'.gelesen = s.gelesen) (ha : s'.antwort = s.antwort)
    (hB : Buchhaltung s → Buchhaltung s') : Verlauf s s' :=
  ⟨⟨[], by simp, by simp [htx], by simp [hb], by simp [hg]⟩, ha, hB⟩

theorem Verlauf.refl (s : Welt) : Verlauf s s := .still rfl rfl rfl rfl id

/-- Same counters, same answers taken. -/
theorem buchhaltung_of_eq {s s' : Welt} (hs : s'.stats = s.stats) (hg : s'.gelesen = s.gelesen)
    (ha : s'.antwort = s.antwort) (h : Buchhaltung s) : Buchhaltung s' := by
  obtain ⟨h1, h2, h3⟩ := h
  exact ⟨by rw [hs]; exact h1, by rw [hs, hg]; exact h2, by rw [hs, hg, ha]; exact h3⟩

/-- A stretch that only sends the events `es`, none of them `IOFLAG_TX` or a command. -/
theorem Verlauf.sende {s : Welt} (es : List Ereignis) (hg : ∀ e ∈ es, e.gueltig)
    (hb : es.filterMap Ereignis.befehl? = []) (ht : es.count (.flagge .tx) = 0) :
    Verlauf s (s.sende (es.flatMap Ereignis.kodiere)) :=
  ⟨⟨es, hg, rfl, by simp [hb], by simp [ht]⟩, rfl, buchhaltung_of_eq rfl rfl rfl⟩

/-- `se_wake()`. -/
theorem seWake_verlauf (s : Welt) : Verlauf s (seWake s) :=
  Verlauf.sende [.wecken] (by simp [Ereignis.gueltig]) rfl rfl

/-- `IOFLAG_IDLE`, `IOFLAG_SLEEP`. -/
theorem flagge_verlauf (s : Welt) {f : Ioflag} (hc : f ≠ .cmd) (ht : f ≠ .tx) :
    Verlauf s (s.sende (sendBits f.wert)) := by
  have h := Verlauf.sende (s := s) [.flagge f] (by simpa [Ereignis.gueltig] using hc) rfl
    (by simp [List.count_cons, ht])
  simpa [Ereignis.kodiere] using h

theorem seSleep_verlauf (s : Welt) : Verlauf s (seSleep s) := flagge_verlauf s (by decide) (by decide)

/-- **`se_write` with a body of at most 248 bytes**: the wake byte and the command's frame. -/
theorem seWrite_verlauf (opcode p1 : Byte) (p2 : BitVec 16) (data : Speicher) (n : Byte)
    (hn : n.toNat ≤ 248) (s : Welt) : Verlauf s (seWrite opcode p1 p2 data n s) := by
  obtain ⟨m, hm8, rfl⟩ : ∃ m, m < 2 ^ 8 ∧ n = BitVec.ofNat 8 m := ⟨n.toNat, n.isLt, by simp⟩
  have hm : (BitVec.ofNat 8 m).toNat = m := by
    simp only [BitVec.toNat_ofNat] at hn ⊢; omega
  rw [hm] at hn
  -- the frame: header, body and the CRC of one pass over both
  have htx : (seWrite opcode p1 p2 data (BitVec.ofNat 8 m) s).tx = s.tx ++ [0x00] ++
      (rahmen opcode p1 p2 (data.lies 0 m)).flatMap sendBits := by
    have hl : ((known opcode p1 p2 (BitVec.ofNat 8 m)).drop 1 ++ data.lies 0 m).length = m + 5 := by
      simp [known]
    rw [seWrite_tx, hm, seWriteCrc_eq (known opcode p1 p2 (BitVec.ofNat 8 m)) rfl _ _ (by omega), known_ofNat, rahmen, Speicher.lies_length,
      seCrc16Chain_eq, BitVec.toNat_ofNat, Nat.mod_eq_of_lt (by omega : m + 5 < 2 ^ 8), register_null]
    rw [← known_ofNat, ← hl, Speicher.lies_ausListe, known_ofNat]
  refine ⟨⟨[.wecken, .befehl ⟨opcode, p1, p2, data.lies 0 m⟩], ?_, ?_, ?_, ?_⟩, by simp,
    buchhaltung_of_eq (by simp) (by simp) (by simp)⟩
  · simp [Ereignis.gueltig, hn]
  · simp [htx, Ereignis.kodiere]
  · simp [Ereignis.befehl?, hm]
  · simp

/-! ## 3. `se_read` -/

section Lesen

variable (k : Konstanten) (len : Byte)

/-- **The counters of one attempt**: those of the answer as `se_read_response` counts them, and one
    more open retry exactly when the attempt ends in `try_again`. -/
theorem seReadVersuch_zaehler (data tmp : Speicher) (s : Welt) :
    let v := seReadVersuch k len data tmp s
    let st0 := zaehleEmpfang (s.antwort s.gelesen) s.stats
    v.2.2.2.stats.rtof = st0.rtof ∧ v.2.2.2.stats.notrxne = st0.notrxne ∧
      v.2.2.2.stats.rxne = st0.rxne ∧
      offen v.2.2.2.stats = offen s.stats + if v.1 = .nochmal then 1 else 0 := by
  intro v st0
  have hv : v = seReadVersuch k len data tmp s := rfl
  clear_value v
  simp only [seReadVersuch] at hv
  -- the first test by hand: splitting the whole attempt at once is slow
  by_cases h4 : (seReadResponse (len.toNat + 3) s).1.2 < 4
  · rw [if_pos h4] at hv
    subst hv
    split <;> simp only [offen, zaehleEmpfang, Welt.zaehle_stats, seReadResponse_stats, if_true] <;>
      refine ⟨rfl, rfl, rfl, ?_⟩ <;> ring
  rw [if_neg h4] at hv
  repeat' split at hv
  all_goals subst hv; simp only [offen, zaehleEmpfang, Welt.zaehle_stats, Welt.sende_stats,
    seReadResponse_stats, reduceCtorEq, if_true, if_false]; refine ⟨rfl, rfl, rfl, ?_⟩; ring

/-- One pass of the loop of `se_read`, with the `ln_retry` of `try_again`. -/
theorem seReadVersuch_verlauf (data tmp : Speicher) (s : Welt) :
    let v := seReadVersuch k len data tmp s
    (v.1 = .nochmal → Verlauf s (v.2.2.2.zaehle fun st => { st with lnRetry := st.lnRetry + 1 })) ∧
      (∀ rc, v.1 = .ende rc → Verlauf s v.2.2.2) := by
  intro v
  obtain ⟨-, -, -, h4, h5, h6, -, -, -, -⟩ := seReadVersuch_spec k len data tmp s
  obtain ⟨-, -, -, -, -, hb⟩ := seReadVersuch_erhaelt k len data tmp s
  obtain ⟨z1, z2, z3, z4⟩ := seReadVersuch_zaehler k len data tmp s
  have hv : v = seReadVersuch k len data tmp s := rfl
  rw [← hv] at h4 h5 h6 hb z1 z2 z3 z4
  clear_value v
  -- the events: `IOFLAG_TX`, and `IOFLAG_IDLE` when the answer is taken
  have spur : ∀ (p : Prop) [Decidable p], v.2.2.2.tx = s.tx ++ sendBits Ioflag.tx.wert ++
      (if p then sendBits Ioflag.idle.wert else []) →
      Spur s v.2.2.2 ([.flagge .tx] ++ if p then [.flagge .idle] else []) := by
    intro p _ ha
    refine ⟨?_, ?_, ?_, ?_⟩ <;> by_cases hp : p <;>
      simp [ha, hb, h5, hp, Ereignis.gueltig, Ereignis.kodiere, Ereignis.befehl?]
  -- the books, given what the attempt left open
  have books : ∀ (w : Welt) (d : BitVec 32), w.gelesen = s.gelesen + 1 → w.antwort = s.antwort →
      w.stats.rtof = v.2.2.2.stats.rtof → w.stats.notrxne = v.2.2.2.stats.notrxne →
      w.stats.rxne = v.2.2.2.stats.rxne → offen w.stats = offen v.2.2.2.stats - d →
      offen v.2.2.2.stats = offen s.stats + d → Buchhaltung s → Buchhaltung w := by
    intro w d hg ha hr hn hx ho hd ⟨b1, b2, b3⟩
    refine ⟨(wiederholungen_iff _).mpr ?_, ?_, ?_⟩
    · rw [ho, hd, (wiederholungen_iff _).mp b1]; ring
    · rw [hr, hn, z1, z2, hg, ← BitVec.ofNat_add_ofNat, ← b2]
      simp only [zaehleEmpfang]
      split <;> simp only [BitVec.ofNat_eq_ofNat] <;> ring
    · rw [hx, z3, hg, ha, antwortBytes_succ, ← BitVec.ofNat_add_ofNat, ← b3]
      rfl
  refine ⟨fun hn => ⟨⟨_, (spur _ h4).zaehle _⟩, by simp [h6],
    books _ 1 (by simp [h5]) (by simp [h6]) rfl rfl rfl (by simp [offen]; ring) (by rw [z4, if_pos hn])⟩,
    fun rc hr => ⟨⟨_, spur _ h4⟩, h6, books _ 0 h5 h6 rfl rfl rfl (by ring)
      (by rw [z4, if_neg (by rw [hr]; exact Ausgang.noConfusion)])⟩⟩

/-- **`se_read` is a stretch of a run**: its attempts' `IOFLAG_TX`s and answers, `IOFLAG_IDLE` on
    success, and the books kept -- `ln_retry` for every retry, `retry_out` at the end. -/
theorem seReadSchleife_verlauf (n : Nat) : ∀ (data tmp : Speicher) (s : Welt),
    Verlauf s (seReadSchleife k len n data tmp s).2.2 := by
  induction n with
  | zero =>
    intro data tmp s
    exact .still rfl rfl rfl rfl fun ⟨b1, b2, b3⟩ => ⟨b1, b2, b3⟩
  | succ n ih =>
    intro data tmp s
    obtain ⟨hn, he⟩ := seReadVersuch_verlauf k len data tmp s
    rcases hv : (seReadVersuch k len data tmp s).1 with _ | rc
    · rw [seReadSchleife_nochmal k len hv]
      exact (hn hv).trans (ih _ _ _)
    · rw [seReadSchleife_ende k len hv]
      exact he rc hv

end Lesen

/-! ## 4. The exchanges -/

section Austausch

variable (k : Konstanten) (u : Umgebung)

theorem seRead_verlauf (data : Speicher) (len : Byte) (s : Welt) :
    Verlauf s (seRead k data len s).2.2 :=
  seReadSchleife_verlauf k len 101 data s.stapel s

theorem seRead1_verlauf (s : Welt) : Verlauf s (seRead1 k s).2 := seRead_verlauf k s.stapel 1 s

theorem rngBuffer_verlauf (s : Welt) (n : Nat) : Verlauf s (s.rngBuffer n).2 :=
  .still rfl rfl rfl rfl (buchhaltung_of_eq rfl rfl rfl)

theorem sePickNonce_verlauf (numIn tempkey : Speicher) (s : Welt) :
    Verlauf s (sePickNonce k u numIn tempkey s).2.2 := by
  simp only [sePickNonce]
  split <;> exact (seWrite_verlauf k.opNonce 0 0 numIn 20 (by decide) s).trans
    ((seRead_verlauf k _ 32 _).trans (seSleep_verlauf _))

theorem checkmacNonce_verlauf (s : Welt) : Verlauf s (checkmacNonce k u s).2.2.2 :=
  (rngBuffer_verlauf s 32).trans ((rngBuffer_verlauf _ 20).trans (sePickNonce_verlauf k u _ _ _))

theorem seGendigSlot_verlauf (slotNum : Int) (slotContents digest : Speicher) (s : Welt) :
    Verlauf s (seGendigSlot k u slotNum slotContents digest s).2.2 := by
  have hn := (rngBuffer_verlauf s 20).trans
    (sePickNonce_verlauf k u (Speicher.ausListe (s.rngBuffer 20).1) (s.rngBuffer 20).2.stapel _)
  simp only [seGendigSlot]
  split
  · exact hn
  · split <;> exact hn.trans ((seWrite_verlauf k.opGenDig 2 _ (fun _ => 0) 0 (by decide) _).trans
      ((seRead1_verlauf k _).trans (seSleep_verlauf _)))

theorem seIsCorrectTempkey_verlauf (expected : Speicher) (s : Welt) :
    Verlauf s (seIsCorrectTempkey k u expected s).2 := by
  simp only [seIsCorrectTempkey]
  split <;> exact (seWrite_verlauf k.opMAC macMode _ (fun _ => 0) 0 (by decide) s).trans
    ((seRead_verlauf k _ 32 _).trans (seSleep_verlauf _))

theorem seCheckmac_verlauf (keynum : Byte) (secret : Speicher) (s : Welt) :
    Verlauf s (seCheckmac k u keynum secret s).2 := by
  simp only [seCheckmac, checkmacBefehl]
  split
  · exact checkmacNonce_verlauf k u s
  · exact (checkmacNonce_verlauf k u s).trans ((seWrite_verlauf _ _ _ _ 77 (by decide) _).trans
      ((seRead1_verlauf k _).trans (seSleep_verlauf _)))

theorem pairUnlockSchleife_verlauf (n : Nat) : ∀ s, Verlauf s (pairUnlockSchleife k u n s).2 := by
  induction n with
  | zero => exact Verlauf.refl
  | succ n ih =>
    intro s
    simp only [pairUnlockSchleife]
    split
    · exact seCheckmac_verlauf k u _ _ s
    · exact (seCheckmac_verlauf k u _ _ s).trans (ih _)

theorem seCheckmacHard_verlauf (keynum : Byte) (secret : Speicher) (s : Welt) :
    Verlauf s (seCheckmacHard k u keynum secret s).2 := by
  simp only [seCheckmacHard]
  split
  · exact seGendigSlot_verlauf k u _ _ _ s
  · exact (seGendigSlot_verlauf k u _ _ _ s).trans (seIsCorrectTempkey_verlauf k u _ _)

theorem configSchleife_verlauf (n : Nat) : ∀ (blk : Nat) (config : Speicher) (s : Welt),
    Verlauf s (configSchleife k blk n config s).2.2 := by
  induction n with
  | zero => exact fun _ _ => Verlauf.refl
  | succ n ih =>
    intro blk config s
    have h := (seWrite_verlauf k.opRead 0x80 (BitVec.ofNat 16 (blk <<< 3)) (fun _ => 0) 0 (by decide)
      s).trans (seRead_verlauf k (config.ab (32 * blk)) 32 _)
    simp only [configSchleife]
    split
    · exact h
    · exact h.trans (ih _ _ _)

theorem seConfigRead_verlauf (config : Speicher) (s : Welt) :
    Verlauf s (seConfigRead k config s).2.2 :=
  (configSchleife_verlauf k 4 0 config s).trans (flagge_verlauf _ (by decide) (by decide))

theorem seEncryptedWrite32_verlauf (dataSlot blk writeKn : Int) (writeKey data : Speicher)
    (s : Welt) : Verlauf s (seEncryptedWrite32 k u dataSlot blk writeKn writeKey data s).2 := by
  have hp := pairUnlockSchleife_verlauf k u 3 s
  have hg := hp.trans (seGendigSlot_verlauf k u writeKn writeKey (sePairUnlock k u s).2.stapel _)
  simp only [seEncryptedWrite32]
  split
  · exact hp
  · split
    · exact hg
    · split <;> exact hg.trans ((seWrite_verlauf _ _ _ _ 64 (by decide) _).trans
        ((seRead1_verlauf k _).trans (seSleep_verlauf _)))

theorem encryptedWriteSchleife_verlauf (dataSlot writeKn : Int) (writeKey data : Speicher)
    (n : Nat) : ∀ (blk : Nat) (len : Int) (s : Welt),
    Verlauf s (encryptedWriteSchleife k u dataSlot writeKn writeKey data blk n len s).2 := by
  induction n with
  | zero => exact fun _ _ => Verlauf.refl
  | succ n ih =>
    intro blk len s
    simp only [encryptedWriteSchleife]
    split
    · have h := seEncryptedWrite32_verlauf k u dataSlot blk writeKn writeKey
        (Speicher.schreibe (fun _ => 0) 0 (data.lies (32 * blk) (min 32 len).toNat)) s
      split
      · exact h
      · exact h.trans (ih _ _ _)
    · exact .refl s

theorem seEncryptedWrite_verlauf (dataSlot writeKn : Int) (writeKey data : Speicher) (len : Int)
    (s : Welt) : Verlauf s (seEncryptedWrite k u dataSlot writeKn writeKey data len s).2 :=
  encryptedWriteSchleife_verlauf k u dataSlot writeKn writeKey data 3 0 len s

end Austausch

/-! ## 5. Every exchange ends asleep -/

/-- From `s` to `s'` the last bytes sent are `IOFLAG_SLEEP`. -/
def Schlafend (s s' : Welt) : Prop := ∃ t, s'.tx = s.tx ++ t ++ sendBits Ioflag.sleep.wert

theorem schlafend_sleep (s : Welt) : Schlafend s (s.sende (sendBits Ioflag.sleep.wert)) :=
  ⟨[], by simp⟩

theorem Verlauf.schlafend {s s' s'' : Welt} (h : Verlauf s s') (h' : Schlafend s' s'') :
    Schlafend s s'' := by
  obtain ⟨es, -, htx, -⟩ := h.spur
  obtain ⟨t, ht⟩ := h'
  exact ⟨es.flatMap Ereignis.kodiere ++ t, by rw [ht, htx]; simp only [List.append_assoc]⟩

section Schlaf

variable (k : Konstanten) (u : Umgebung)

theorem sePickNonce_schlafend (numIn tempkey : Speicher) (s : Welt) :
    Schlafend s (sePickNonce k u numIn tempkey s).2.2 := by
  simp only [sePickNonce]
  split <;> exact ((seWrite_verlauf k.opNonce 0 0 numIn 20 (by decide) s).trans
    (seRead_verlauf k _ 32 _)).schlafend (schlafend_sleep _)

theorem checkmacNonce_schlafend (s : Welt) : Schlafend s (checkmacNonce k u s).2.2.2 :=
  ((rngBuffer_verlauf s 32).trans (rngBuffer_verlauf _ 20)).schlafend (sePickNonce_schlafend k u _ _ _)

theorem seGendigSlot_schlafend (slotNum : Int) (slotContents digest : Speicher) (s : Welt) :
    Schlafend s (seGendigSlot k u slotNum slotContents digest s).2.2 := by
  have hn := (rngBuffer_verlauf s 20).trans
    (sePickNonce_verlauf k u (Speicher.ausListe (s.rngBuffer 20).1) (s.rngBuffer 20).2.stapel _)
  simp only [seGendigSlot]
  split
  · exact (rngBuffer_verlauf s 20).schlafend (sePickNonce_schlafend k u _ _ _)
  · split <;> exact (hn.trans ((seWrite_verlauf k.opGenDig 2 _ (fun _ => 0) 0 (by decide) _).trans
      (seRead1_verlauf k _))).schlafend (schlafend_sleep _)

theorem seIsCorrectTempkey_schlafend (expected : Speicher) (s : Welt) :
    Schlafend s (seIsCorrectTempkey k u expected s).2 := by
  simp only [seIsCorrectTempkey]
  split <;> exact ((seWrite_verlauf k.opMAC macMode _ (fun _ => 0) 0 (by decide) s).trans
    (seRead_verlauf k _ 32 _)).schlafend (schlafend_sleep _)

theorem seCheckmac_schlafend (keynum : Byte) (secret : Speicher) (s : Welt) :
    Schlafend s (seCheckmac k u keynum secret s).2 := by
  simp only [seCheckmac, checkmacBefehl]
  split
  · exact checkmacNonce_schlafend k u s
  · exact ((checkmacNonce_verlauf k u s).trans ((seWrite_verlauf _ _ _ _ 77 (by decide) _).trans
      (seRead1_verlauf k _))).schlafend (schlafend_sleep _)

theorem pairUnlockSchleife_schlafend (n : Nat) :
    ∀ s, Schlafend s (pairUnlockSchleife k u (n + 1) s).2 := by
  induction n with
  | zero =>
    intro s
    simp only [pairUnlockSchleife]
    split <;> exact seCheckmac_schlafend k u _ _ s
  | succ n ih =>
    intro s
    rw [pairUnlockSchleife]
    split
    · exact seCheckmac_schlafend k u _ _ s
    · exact (seCheckmac_verlauf k u _ _ s).schlafend (ih _)

theorem seCheckmacHard_schlafend (keynum : Byte) (secret : Speicher) (s : Welt) :
    Schlafend s (seCheckmacHard k u keynum secret s).2 := by
  simp only [seCheckmacHard]
  split
  · exact seGendigSlot_schlafend k u _ _ _ s
  · exact (seGendigSlot_verlauf k u _ _ _ s).schlafend (seIsCorrectTempkey_schlafend k u _ _)

theorem seConfigRead_schlafend (config : Speicher) (s : Welt) :
    Schlafend s (seConfigRead k config s).2.2 :=
  (configSchleife_verlauf k 4 0 config s).schlafend (schlafend_sleep _)

theorem seEncryptedWrite32_schlafend (dataSlot blk writeKn : Int) (writeKey data : Speicher)
    (s : Welt) : Schlafend s (seEncryptedWrite32 k u dataSlot blk writeKn writeKey data s).2 := by
  have hp := pairUnlockSchleife_verlauf k u 3 s
  simp only [seEncryptedWrite32]
  split
  · exact pairUnlockSchleife_schlafend k u 2 s
  · split
    · exact hp.schlafend (seGendigSlot_schlafend k u writeKn writeKey (sePairUnlock k u s).2.stapel _)
    · split <;> exact ((hp.trans (seGendigSlot_verlauf k u _ _ _ _)).trans
        ((seWrite_verlauf _ _ _ _ 64 (by decide) _).trans (seRead1_verlauf k _))).schlafend
          (schlafend_sleep _)

theorem encryptedWriteSchleife_schlafend (dataSlot writeKn : Int) (writeKey data : Speicher)
    (n : Nat) : ∀ (blk : Nat) (len : Int) (s : Welt), 0 < len →
    Schlafend s (encryptedWriteSchleife k u dataSlot writeKn writeKey data blk (n + 1) len s).2 := by
  induction n with
  | zero =>
    intro blk len s hl
    simp only [encryptedWriteSchleife, if_pos hl]
    split <;> exact seEncryptedWrite32_schlafend k u _ _ _ _ _ s
  | succ n ih =>
    intro blk len s hl
    rw [encryptedWriteSchleife, if_pos hl]
    dsimp only
    split
    · exact seEncryptedWrite32_schlafend k u _ _ _ _ _ s
    · by_cases hl' : 0 < len - 32
      · exact (seEncryptedWrite32_verlauf k u _ _ _ _ _ s).schlafend (ih _ _ _ hl')
      · rw [encryptedWriteSchleife, if_neg hl']
        exact seEncryptedWrite32_schlafend k u _ _ _ _ _ s

end Schlaf

end PassportSe
