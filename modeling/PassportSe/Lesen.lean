import PassportSe.Crc
import PassportSe.Empfang

/-!
# `se_read`: up to 101 attempts at a response

`se_read(data, len)` asks the chip for a response up to 101 times. An attempt ends the call when
its response is accepted (`memcpy` into `data`, `IOFLAG_IDLE`, `0`) or is the chip's error frame
(`-1`); otherwise `goto try_again` counts a retry, and when the attempts run out the call counts
`retry_out` and returns `-1`.

* `seReadVersuch_spec` -- one attempt, by the verdict `urteil` its response gets;
* **`seRead_referenz`** -- the loop is the first match over the verdicts of the first 101
  attempts (`referenz`): the code, the pulses sent, the answers taken, `data`, and the counters
  `ln_retry` and `retry_out`;
* **`seRead_info_kopie`** -- on the `OP_Info` path `memcpy` copies `actual - 3` bytes, past `len`
  when the chip sends more;
* `seRead_stumm`, `seRead_ehrlich` -- a silent bus exhausts the attempts; a well-formed response
  is accepted at once;
* `seRead_kopie` -- on the other paths, below 256 bytes received, exactly `len` bytes of a
  response that passed `check_crc` are copied;
* `seRead_antwortet` -- the whole call on an honest chip: code, `data`, pulses sent, answers taken
  and counters.
-/

namespace PassportSe

/-! ## 1. The model -/

/-- How a pass of the loop of `se_read` ends: `goto try_again`, or `return rc`. -/
inductive Ausgang where
  | nochmal
  | ende (rc : Int)
  deriving DecidableEq, Repr

/-- One pass of the loop of `se_read(data, len)` up to `try_again`, with `tmp` as the passes before
    left it: `se_read_response(tmp, len + 3)`, then the checks. `check_crc(tmp, actual)` takes
    `actual` as a `uint8_t`. Returns how the pass ended, `data`, `tmp` and the world. -/
def seReadVersuch (k : Konstanten) (len : Byte) (data tmp : Speicher) (s : Welt) :
    Ausgang × Speicher × Speicher × Welt :=
  let r := seReadResponse (len.toNat + 3) s
  let actual := r.1.2
  let tmp := tmp.schreibe 0 r.1.1
  let s := r.2
  let annehmen : Ausgang × Speicher × Speicher × Welt :=
    (.ende 0, data.schreibe 0 (tmp.lies 1 (actual - 3).toNat), tmp,
      s.sende (sendBits Ioflag.idle.wert))
  if actual < 4 then
    (.nochmal, data, tmp,
      if actual = 0 then s.zaehle fun st => { st with notReadyN := st.notReadyN + 1 }
      else s.zaehle fun st => { st with shortError := st.shortError + 1 })
  else if s.currentOpcode ≠ k.opInfo then
    if (tmp 0).toNat ≠ len.toNat + 3 then
      let s := s.zaehle fun st => { st with lenError := st.lenError + 1 }
      if tmp 0 = 4 then
        let s := s.zaehle fun st => { st with lenErrorTwo := st.lenErrorTwo + 1 }
        (.ende (-1), data, tmp,
          if tmp 1 = 0xEE then s.zaehle fun st => { st with wdgtimeout := st.wdgtimeout + 1 }
          else s)
      else (.nochmal, data, tmp, s)
    else if checkCrc tmp (BitVec.ofInt 8 actual) = false then
      (.nochmal, data, tmp, s.zaehle fun st => { st with crcErrors := st.crcErrors + 1 })
    else annehmen
  else annehmen

/-- The loop `for (retry = 100; retry >= 0; retry--)` with `n` passes left: `try_again` counts
    `ln_retry`; running out counts `retry_out` and returns `-1`. -/
def seReadSchleife (k : Konstanten) (len : Byte) :
    Nat → Speicher → Speicher → Welt → Int × Speicher × Welt
  | 0, data, _, s => (-1, data, s.zaehle fun st => { st with retryOut := st.retryOut + 1 })
  | n + 1, data, tmp, s =>
    match seReadVersuch k len data tmp s with
    | (.nochmal, data, tmp, s) =>
      seReadSchleife k len n data tmp (s.zaehle fun st => { st with lnRetry := st.lnRetry + 1 })
    | (.ende rc, data, _, s) => (rc, data, s)

/-- `se_read(data, len)`: the code, `data` after the call, and the world. `tmp[1 + len + 2]` is an
    uninitialised stack buffer. -/
def seRead (k : Konstanten) (data : Speicher) (len : Byte) (s : Welt) : Int × Speicher × Welt :=
  seReadSchleife k len 101 data s.stapel s

/-- `se_read1()`: `se_read(&data, 1)` into a stack byte; `-1` on failure, else the byte. -/
def seRead1 (k : Konstanten) (s : Welt) : Int × Welt :=
  let r := seRead k s.stapel 1 s
  (if r.1 < 0 then -1 else (r.2.1 0).toNat, r.2.2)

/-! ## 2. The verdicts and the first match -/

/-- The verdict of the specification on an attempt. -/
inductive Urteil where
  | nochmal
  | chipFehler
  | annehmen
  deriving DecidableEq, Repr

/-- The verdict on an attempt from the response `R` it left in the buffer and its count `a`:
    retry below four bytes; for an opcode other than `OP_Info` retry on a wrong length byte that
    is not `4`, the chip's error on a length byte `4`, and retry on a failed `check_crc(R, a)`;
    accept otherwise. -/
def urteil (k : Konstanten) (opcode len : Byte) (R : Speicher) (a : Int) : Urteil :=
  if a < 4 then .nochmal
  else if opcode = k.opInfo then .annehmen
  else if (R 0).toNat = len.toNat + 3 then
    if checkCrc R (BitVec.ofInt 8 a) then .annehmen else .nochmal
  else if R 0 = 4 then .chipFehler else .nochmal

/-- How a pass ends under a verdict. -/
def Urteil.ausgang : Urteil → Ausgang
  | .nochmal => .nochmal
  | .chipFehler => .ende (-1)
  | .annehmen => .ende 0

/-- The buffer `tmp` after `j` attempts of a call begun in `s`: each writes what
    `se_read_response` deserialised from its answer. -/
def puffer (len : Byte) (s : Welt) : Nat → Speicher
  | 0 => s.stapel
  | j + 1 =>
    (puffer len s j).schreibe 0 (empfangen s.stapel (len.toNat + 3) (s.antwort (s.gelesen + j)).pulse).1

/-- The count `se_read_response` returns at attempt `j` of a call begun in `s`. -/
def anzahl (len : Byte) (s : Welt) (j : Nat) : Int :=
  (empfangen s.stapel (len.toNat + 3) (s.antwort (s.gelesen + j)).pulse).2

/-- The verdict on attempt `j` of a call begun in `s`. -/
def urteilFolge (k : Konstanten) (len : Byte) (s : Welt) (j : Nat) : Urteil :=
  urteil k s.currentOpcode len (puffer len s (j + 1)) (anzahl len s j)

/-- The first of the attempts `j, …, j + n - 1` whose verdict is not `nochmal`, with its verdict. -/
def ersterTreffer (f : Nat → Urteil) : Nat → Nat → Option (Nat × Urteil)
  | _, 0 => none
  | j, n + 1 => if f j = .nochmal then ersterTreffer f (j + 1) n else some (j, f j)

/-- The outcome of a call: its code, the attempts and the retries made, the attempt accepted (if
    any), and whether the attempts ran out. -/
structure Ausgabe where
  rc : Int
  versuche : Nat
  wiederholungen : Nat
  annahme : Option Nat
  erschoepft : Bool
  deriving DecidableEq, Repr

/-- **The first-match reference**: from attempt `j` with `n` attempts left, the first verdict that
    is not `nochmal` decides; none in `n` attempts runs them out. -/
def referenz (f : Nat → Urteil) (j n : Nat) : Ausgabe :=
  match ersterTreffer f j n with
  | some (i, .annehmen) => ⟨0, i + 1 - j, i - j, some i, false⟩
  | some (i, _) => ⟨-1, i + 1 - j, i - j, none, false⟩
  | none => ⟨-1, n, n, none, true⟩

/-! ## 3. The first match -/

section Treffer

variable (f : Nat → Urteil)

theorem ersterTreffer_spec {j n i : Nat} {u : Urteil} (h : ersterTreffer f j n = some (i, u)) :
    j ≤ i ∧ i < j + n ∧ u = f i ∧ u ≠ .nochmal ∧ ∀ m, j ≤ m → m < i → f m = .nochmal := by
  induction n generalizing j with
  | zero => simp [ersterTreffer] at h
  | succ n ih =>
    simp only [ersterTreffer] at h
    split at h
    · obtain ⟨h1, h2, h3, h4, h5⟩ := ih h
      refine ⟨by omega, by omega, h3, h4, fun m hm hmi => ?_⟩
      rcases Nat.eq_or_lt_of_le hm with rfl | hm
      · assumption
      · exact h5 m hm hmi
    · cases h
      exact ⟨le_refl _, by omega, rfl, by assumption, fun m hm hmi => by omega⟩

theorem referenz_zero (j : Nat) : referenz f j 0 = ⟨-1, 0, 0, none, true⟩ := rfl

theorem referenz_nochmal {j : Nat} (n : Nat) (h : f j = .nochmal) :
    referenz f j (n + 1) =
      { referenz f (j + 1) n with
        versuche := (referenz f (j + 1) n).versuche + 1
        wiederholungen := (referenz f (j + 1) n).wiederholungen + 1 } := by
  unfold referenz
  rw [ersterTreffer, if_pos h]
  rcases ht : ersterTreffer f (j + 1) n with _ | ⟨i, u⟩
  · rfl
  · have hi := (ersterTreffer_spec f ht).1
    cases u <;> simp <;> omega

theorem referenz_chipFehler {j : Nat} (n : Nat) (h : f j = .chipFehler) :
    referenz f j (n + 1) = ⟨-1, 1, 0, none, false⟩ := by
  simp [referenz, ersterTreffer, h]

theorem referenz_annehmen {j : Nat} (n : Nat) (h : f j = .annehmen) :
    referenz f j (n + 1) = ⟨0, 1, 0, some j, false⟩ := by
  simp [referenz, ersterTreffer, h]

/-- At most the `n` attempts left are made. -/
theorem referenz_versuche_le (j n : Nat) : (referenz f j n).versuche ≤ n := by
  unfold referenz
  rcases ht : ersterTreffer f j n with _ | ⟨i, u⟩
  · exact le_refl _
  · have := (ersterTreffer_spec f ht).2.1
    cases u <;> simp only <;> omega

end Treffer

/-! ## 4. One attempt -/

section Versuch

variable (k : Konstanten) (len : Byte)

@[simp] theorem urteil_ausgang_nochmal {u : Urteil} : u.ausgang = .nochmal ↔ u = .nochmal := by
  cases u <;> simp [Urteil.ausgang]

/-- **One attempt**, by the verdict on the response it leaves in `tmp`: how the pass ends, `data`,
    `tmp`, and the world -- one `IOFLAG_TX` sent (and `IOFLAG_IDLE` when accepted), one answer
    taken, the retry counters untouched. -/
theorem seReadVersuch_spec (data tmp : Speicher) (s : Welt) :
    let e := empfangen s.stapel (len.toNat + 3) (s.antwort s.gelesen).pulse
    let u := urteil k s.currentOpcode len (tmp.schreibe 0 e.1) e.2
    let v := seReadVersuch k len data tmp s
    v.1 = u.ausgang ∧
      v.2.1 = (if u = .annehmen then data.schreibe 0 ((tmp.schreibe 0 e.1).lies 1 (e.2 - 3).toNat)
        else data) ∧
      v.2.2.1 = tmp.schreibe 0 e.1 ∧
      v.2.2.2.tx = s.tx ++ sendBits Ioflag.tx.wert ++
        (if u = .annehmen then sendBits Ioflag.idle.wert else []) ∧
      v.2.2.2.gelesen = s.gelesen + 1 ∧ v.2.2.2.antwort = s.antwort ∧
      v.2.2.2.currentOpcode = s.currentOpcode ∧ v.2.2.2.stapel = s.stapel ∧
      v.2.2.2.stats.lnRetry = s.stats.lnRetry ∧ v.2.2.2.stats.retryOut = s.stats.retryOut := by
  intro e u v
  -- split the one equation for the attempt, not the goal that repeats it ten times
  have hv : v = seReadVersuch k len data tmp s := rfl
  clear_value v
  simp only [seReadVersuch] at hv
  repeat' split at hv
  all_goals subst hv; simp_all [e, u, urteil, Urteil.ausgang, zaehleEmpfang, ← not_le]

/-- An attempt only sends, takes an answer and counts. -/
theorem seReadVersuch_erhaelt (data tmp : Speicher) (s : Welt) :
    let w := (seReadVersuch k len data tmp s).2.2.2
    w.antwort = s.antwort ∧ w.currentOpcode = s.currentOpcode ∧ w.stapel = s.stapel ∧
      w.zufall = s.zufall ∧ w.gezogen = s.gezogen ∧ w.befehle = s.befehle := by
  intro w
  have hw : w = (seReadVersuch k len data tmp s).2.2.2 := rfl
  clear_value w
  simp only [seReadVersuch] at hw
  repeat' split at hw
  all_goals subst hw; simp

end Versuch

/-! ## 5. The whole call -/

/-- The call begun in `s0` with `data` ends in `r` as the outcome `o` says, from the world `s` the
    loop stood in: its code, one `IOFLAG_TX` per attempt and `IOFLAG_IDLE` once when accepted, one
    answer taken per attempt, `data` written from the accepted response, and the counters. -/
structure Ergibt (len : Byte) (s0 : Welt) (data : Speicher) (s : Welt) (o : Ausgabe)
    (r : Int × Speicher × Welt) : Prop where
  rc : r.1 = o.rc
  daten : r.2.1 = match o.annahme with
    | none => data
    | some i => data.schreibe 0 ((puffer len s0 (i + 1)).lies 1 (anzahl len s0 i - 3).toNat)
  tx : r.2.2.tx = s.tx ++ (List.replicate o.versuche (sendBits Ioflag.tx.wert)).flatten ++
    (if o.annahme.isSome then sendBits Ioflag.idle.wert else [])
  gelesen : r.2.2.gelesen = s.gelesen + o.versuche
  lnRetry : r.2.2.stats.lnRetry = s.stats.lnRetry + BitVec.ofNat 32 o.wiederholungen
  retryOut : r.2.2.stats.retryOut = s.stats.retryOut + if o.erschoepft then 1 else 0

section Lauf

variable (k : Konstanten) (len : Byte) (s0 : Welt)

theorem seReadSchleife_nochmal {n : Nat} {data tmp : Speicher} {s : Welt}
    (h : (seReadVersuch k len data tmp s).1 = .nochmal) :
    seReadSchleife k len (n + 1) data tmp s =
      seReadSchleife k len n (seReadVersuch k len data tmp s).2.1
        (seReadVersuch k len data tmp s).2.2.1
        ((seReadVersuch k len data tmp s).2.2.2.zaehle
          fun st => { st with lnRetry := st.lnRetry + 1 }) := by
  rw [seReadSchleife]
  generalize seReadVersuch k len data tmp s = v at h ⊢
  obtain ⟨_ | rc, d, t, w⟩ := v
  · rfl
  · cases h

theorem seReadSchleife_ende {n : Nat} {data tmp : Speicher} {s : Welt} {rc : Int}
    (h : (seReadVersuch k len data tmp s).1 = .ende rc) :
    seReadSchleife k len (n + 1) data tmp s =
      (rc, (seReadVersuch k len data tmp s).2.1, (seReadVersuch k len data tmp s).2.2.2) := by
  rw [seReadSchleife]
  generalize seReadVersuch k len data tmp s = v at h ⊢
  obtain ⟨_ | rc', d, t, w⟩ := v
  · cases h
  · cases h; rfl

/-- **The run**: from attempt `j` of a call begun in `s0`, with `n` attempts left, in a world that
    has taken `j` answers and keeps the call's answers, opcode and stack, the loop ends as the
    first match from `j` says. -/
theorem seReadSchleife_referenz (n : Nat) : ∀ (j : Nat) (data : Speicher) (s : Welt),
    s.antwort = s0.antwort → s.currentOpcode = s0.currentOpcode → s.stapel = s0.stapel →
    s.gelesen = s0.gelesen + j →
    Ergibt len s0 data s (referenz (urteilFolge k len s0) j n)
      (seReadSchleife k len n data (puffer len s0 j) s) := by
  induction n with
  | zero =>
    intro j data s _ _ _ _
    exact ⟨rfl, rfl, by simp [seReadSchleife, referenz_zero], by simp [seReadSchleife, referenz_zero],
      by simp [seReadSchleife, referenz_zero], by simp [seReadSchleife, referenz_zero]⟩
  | succ n ih =>
    intro j data s ha hc hst hg
    have e : (s.antwort s.gelesen).pulse = (s0.antwort (s0.gelesen + j)).pulse := by rw [ha, hg]
    obtain ⟨h1, h2, h3, h4, h5, h6, h7, h8, h9, h10⟩ :=
      seReadVersuch_spec k len data (puffer len s0 j) s
    simp only [e, hc, hst] at h1 h2 h3 h4
    change _ = (urteilFolge k len s0 j).ausgang at h1
    change _ = (if urteilFolge k len s0 j = .annehmen then data.schreibe 0
      ((puffer len s0 (j + 1)).lies 1 (anzahl len s0 j - 3).toNat) else data) at h2
    change _ = puffer len s0 (j + 1) at h3
    change _ = _ ++ _ ++ (if urteilFolge k len s0 j = .annehmen then _ else _) at h4
    cases hf : urteilFolge k len s0 j with
    | nochmal =>
      rw [hf] at h1 h2 h4
      rw [seReadSchleife_nochmal k len h1, referenz_nochmal _ n hf]
      generalize seReadVersuch k len data (puffer len s0 j) s = v at *
      obtain ⟨a, d, t, w⟩ := v
      have hn : Urteil.nochmal ≠ .annehmen := by decide
      simp only [if_neg hn, List.append_nil] at h2 h3 h4 h5 h6 h7 h8 h9 h10
      subst h2 h3
      have := ih (j + 1) d (w.zaehle fun st => { st with lnRetry := st.lnRetry + 1 })
        (by simp [h6, ha]) (by simp [h7, hc]) (by simp [h8, hst]) (by simp [h5, hg]; omega)
      refine ⟨this.rc, this.daten, ?_, ?_, ?_, ?_⟩
      · rw [this.tx]
        simp [h4, List.replicate_succ, List.append_assoc]
      · rw [this.gelesen]; simp [h5]; omega
      · rw [this.lnRetry]; simp [h9, BitVec.ofNat_add, BitVec.add_assoc, BitVec.add_comm]
      · rw [this.retryOut]; simp [h10]
    | chipFehler =>
      rw [hf] at h1 h2 h4
      rw [seReadSchleife_ende k len h1, referenz_chipFehler _ n hf]
      exact ⟨rfl, by simpa using h2, by simpa using h4, by simpa using h5, by simpa using h9,
        by simpa using h10⟩
    | annehmen =>
      rw [hf] at h1 h2 h4
      rw [seReadSchleife_ende k len h1, referenz_annehmen _ n hf]
      exact ⟨rfl, by simpa using h2, by simpa using h4, by simpa using h5, by simpa using h9,
        by simpa using h10⟩

/-- **`se_read` only sends, takes answers and counts**: the answers, the opcode, the stack, the
    RNG and the command log stay as they were. -/
theorem seReadSchleife_erhaelt (n : Nat) : ∀ (data tmp : Speicher) (s : Welt),
    let w := (seReadSchleife k len n data tmp s).2.2
    w.antwort = s.antwort ∧ w.currentOpcode = s.currentOpcode ∧ w.stapel = s.stapel ∧
      w.zufall = s.zufall ∧ w.gezogen = s.gezogen ∧ w.befehle = s.befehle := by
  induction n with
  | zero => intro data tmp s; simp [seReadSchleife]
  | succ n ih =>
    intro data tmp s
    obtain ⟨h1, h2, h3, h4, h5, h6⟩ := seReadVersuch_erhaelt k len data tmp s
    rcases hv : (seReadVersuch k len data tmp s).1 with _ | rc
    · rw [seReadSchleife_nochmal k len hv]
      obtain ⟨g1, g2, g3, g4, g5, g6⟩ := ih (seReadVersuch k len data tmp s).2.1
        (seReadVersuch k len data tmp s).2.2.1
        ((seReadVersuch k len data tmp s).2.2.2.zaehle fun st => { st with lnRetry := st.lnRetry + 1 })
      simp only [Welt.zaehle_antwort, Welt.zaehle_currentOpcode, Welt.zaehle_stapel,
        Welt.zaehle_befehle] at g1 g2 g3 g6
      exact ⟨g1.trans h1, g2.trans h2, g3.trans h3, g4.trans h4, g5.trans h5, g6.trans h6⟩
    · rw [seReadSchleife_ende k len hv]
      exact ⟨h1, h2, h3, h4, h5, h6⟩

/-- The call from its start. -/
theorem seRead_ergibt (data : Speicher) :
    Ergibt len s0 data s0 (referenz (urteilFolge k len s0) 0 101) (seRead k data len s0) :=
  seReadSchleife_referenz k len s0 101 0 data s0 rfl rfl rfl rfl

end Lauf

/-- **`se_read` is the first match over its first 101 attempts**: it makes at most 101 attempts,
    and its code, the pulses it sends, the answers it takes, `data` and the counters `ln_retry`
    and `retry_out` are those of `referenz` over the verdicts `urteilFolge`. -/
theorem seRead_referenz (k : Konstanten) (data : Speicher) (len : Byte) (s : Welt) :
    (referenz (urteilFolge k len s) 0 101).versuche ≤ 101 ∧
      Ergibt len s data s (referenz (urteilFolge k len s) 0 101) (seRead k data len s) :=
  ⟨referenz_versuche_le _ 0 101, seRead_ergibt k len s data⟩

@[simp] theorem seRead_befehle (k : Konstanten) (data : Speicher) (len : Byte) (s : Welt) :
    (seRead k data len s).2.2.befehle = s.befehle :=
  (seReadSchleife_erhaelt k len 101 data s.stapel s).2.2.2.2.2

@[simp] theorem seRead1_befehle (k : Konstanten) (s : Welt) : (seRead1 k s).2.befehle = s.befehle :=
  seRead_befehle k s.stapel 1 s

/-! ## 6. The `OP_Info` copy, a silent bus, a well-formed response -/

theorem referenz_rc_null (f : Nat → Urteil) {j n : Nat} (h : (referenz f j n).rc = 0) :
    ∃ i, ersterTreffer f j n = some (i, .annehmen) ∧ (referenz f j n).annahme = some i := by
  unfold referenz at h ⊢
  rcases ht : ersterTreffer f j n with _ | ⟨i, _ | _ | _⟩ <;> simp_all

/-- The world of the `OP_Info` example: the last command was `OP_Info`, and every answer is the
    eight bytes `1 … 8`. -/
def infoWelt (k : Konstanten) : Welt :=
  { Welt.start (fun _ => ⟨sendSerialized (Speicher.ausListe [1, 2, 3, 4, 5, 6, 7, 8]) 8, false⟩)
      (fun _ => 0) (fun _ => 0) with currentOpcode := k.opInfo }

/-- **The `OP_Info` path copies what the chip sent**: asked for `len = 4` bytes while the opcode is
    `OP_Info`, a chip that sends eight bytes gets `se_read` to return `0` and to write `data[4]`,
    one byte past `len` (`memcpy` copies `actual - 3 = 5`). -/
theorem seRead_info_kopie (k : Konstanten) :
    (seRead k (fun _ => 0) 4 (infoWelt k)).1 = 0 ∧ (seRead k (fun _ => 0) 4 (infoWelt k)).2.1 4 = 6 := by
  have he : empfangen (fun _ => 0) ((4 : Byte).toNat + 3)
      (sendSerialized (Speicher.ausListe [1, 2, 3, 4, 5, 6, 7, 8]) 8) = ([1, 2, 3, 4, 5, 6, 7], 8) := by
    have e := empfangen_flatMap (fun _ => 0) ((4 : Byte).toNat + 3) [1, 2, 3, 4, 5, 6, 7, 8] []
      (by decide) (by decide) (by decide)
    rw [List.append_nil] at e
    rw [sendSerialized_ausListe_of_length [1, 2, 3, 4, 5, 6, 7, 8] 8 rfl, e]
    rfl
  have hu : urteilFolge k 4 (infoWelt k) 0 = .annehmen := by
    simp only [urteilFolge, urteil, anzahl, infoWelt, Welt.start, Nat.zero_add]
    rw [he]
    simp
  have h := seRead_ergibt k 4 (infoWelt k) (fun _ => 0)
  rw [referenz_annehmen _ 100 hu] at h
  refine ⟨h.rc, ?_⟩
  rw [h.daten]
  simp only [puffer, anzahl, infoWelt, Welt.start, Nat.zero_add]
  rw [he]
  decide

/-- **A silent bus exhausts the attempts**: when none of the first 101 answers reaches four bytes,
    the outcome is `-1` after 101 attempts and 101 retries, with the attempts run out. -/
theorem seRead_stumm (k : Konstanten) (len : Byte) (s : Welt)
    (h : ∀ j, j < 101 → anzahl len s j < 4) :
    referenz (urteilFolge k len s) 0 101 = ⟨-1, 101, 101, none, true⟩ := by
  have hn : ∀ n j, j + n ≤ 101 → ersterTreffer (urteilFolge k len s) j n = none := by
    intro n
    induction n with
    | zero => intro j _; rfl
    | succ n ih =>
      intro j hj
      have hf : urteilFolge k len s j = .nochmal := by
        simp [urteilFolge, urteil, h j (by omega)]
      rw [ersterTreffer, if_pos hf, ih (j + 1) (by omega)]
  simp [referenz, hn 101 0 (by omega)]

/-- **A well-formed response is accepted at once**: for an opcode other than `OP_Info` and
    `1 ≤ len ≤ 252`, when the first answer is the pulses of `mitCrc x`, a frame of `len + 3`
    bytes that starts with `len + 3`, the first attempt accepts, and `data` receives `x` without
    its length byte. -/
theorem seRead_ehrlich (k : Konstanten) (data : Speicher) (len : Byte) (s : Welt) (x : List Byte)
    (hx : x.length = len.toNat + 1) (h1 : 1 ≤ len.toNat) (h255 : len.toNat + 3 ≤ 255)
    (hx0 : x[0]? = some (BitVec.ofNat 8 (len.toNat + 3))) (hop : s.currentOpcode ≠ k.opInfo)
    (ha : (s.antwort s.gelesen).pulse = (mitCrc x).flatMap sendBits) :
    referenz (urteilFolge k len s) 0 101 = ⟨0, 1, 0, some 0, false⟩ ∧
      (seRead k data len s).2.1 = data.schreibe 0 (x.drop 1) := by
  have he : empfangen s.stapel ((len.toNat : Int) + 3) ((mitCrc x).flatMap sendBits) =
      (mitCrc x, (len.toNat : Int) + 3) := by
    have := empfangen_nachlauf s.stapel ((len.toNat : Int) + 3) (mitCrc x) [] (by simp)
      (by simp [hx]; omega) (by omega) (by simp)
    rw [List.append_nil] at this
    rw [this, mitCrc_length, hx]
    congr 1
  have hp : puffer len s 1 = s.stapel.schreibe 0 (mitCrc x) := by
    simp [puffer, ha, he]
  have hA : anzahl len s 0 = len.toNat + 3 := by simp [anzahl, ha, he]
  have hR : ∀ i, i < len.toNat + 3 → puffer len s 1 i = Speicher.ausListe (mitCrc x) i := by
    intro i hi
    rw [hp, show i = 0 + i by omega, Speicher.schreibe_innen _ _ _ _ (by simp [hx]; omega),
      Nat.zero_add, Speicher.ausListe_getElem _ _ (by simp [hx]; omega)]
  have hx0' : x[0]? = some (BitVec.ofNat 8 (x.length + 2)) := by rw [hx0, hx]
  have hR0 : puffer len s 1 0 = BitVec.ofNat 8 (len.toNat + 3) := by
    rw [hR 0 (by omega), mitCrc, Speicher.ausListe_append_links _ _ (by omega),
      Speicher.ausListe_getElem _ _ (by omega)]
    simpa [List.getElem?_eq_getElem (show 0 < x.length by omega)] using hx0
  have hc : checkCrc (puffer len s 1) (BitVec.ofInt 8 (anzahl len s 0)) = true := by
    have hn : (BitVec.ofNat 8 (len.toNat + 3)).toNat = len.toNat + 3 := by
      simp only [BitVec.toNat_ofNat]; omega
    rw [hA, show ((len.toNat : Int) + 3) = ((len.toNat + 3 : Nat) : Int) by push_cast; rfl,
      BitVec.ofInt_natCast, checkCrc_congr (by omega) (fun i hi => hR i (by omega)),
      show len.toNat + 3 = x.length + 2 by omega]
    exact checkCrc_mitCrc x (by omega) hx0'
  have hu : urteilFolge k len s 0 = .annehmen := by
    have hR0n : (puffer len s 1 0).toNat = len.toNat + 3 := by
      rw [hR0]; simp only [BitVec.toNat_ofNat]; omega
    rw [urteilFolge, urteil, if_neg (by rw [hA]; omega), if_neg hop, if_pos hR0n, if_pos hc]
  have hr := referenz_annehmen (urteilFolge k len s) 100 hu
  refine ⟨hr, ?_⟩
  rw [(seRead_ergibt k len s data).daten, hr]
  dsimp only
  rw [hA, hp, show ((len.toNat : Int) + 3 - 3).toNat = len.toNat by omega]
  refine congrArg (data.schreibe 0) (List.ext_getElem (by simp [hx]) fun i h1' _ => ?_)
  simp only [Speicher.lies_length] at h1'
  rw [Speicher.getElem_lies, show 1 + i = 0 + (1 + i) by omega,
    Speicher.schreibe_innen _ _ _ _ (by simp [hx]; omega), List.getElem_drop]
  simp only [mitCrc]
  rw [List.getElem_append_left (by omega)]

/-! ## 7. Whole calls: what is copied, an honest chip -/

/-- A bus on which nothing answers. -/
def stilleWelt : Welt := Welt.start (fun _ => ⟨[], false⟩) (fun _ => 0) (fun _ => 0)

/-- A chip that answers every attempt with the frame `[4, 0]` and its CRC: one data byte, `0`. -/
def einByteWelt : Welt :=
  Welt.start (fun _ => ⟨(mitCrc [4, 0]).flatMap sendBits, false⟩) (fun _ => 0) (fun _ => 0)

/-- Every attempt on `einByteWelt` receives the four bytes of the frame. -/
theorem anzahl_einByteWelt (j : Nat) : anzahl 1 einByteWelt j = 4 := by
  have h := empfangen_nachlauf (fun _ => 0) ((1 : Byte).toNat + 3) (mitCrc [4, 0]) [] (by simp)
    (by simp) (by simp) (by simp)
  simpa [anzahl, einByteWelt, Welt.start] using congrArg Prod.snd h

/-- **Below 256 bytes received, an accepted response other than `OP_Info` is copied whole**: when
    `se_read` returns `0` and no attempt returned `256` or more, the accepting attempt `i`
    received exactly `len + 3` bytes, starting with `len + 3` and ending with the CRC of the
    first `len + 1`, and `data` receives exactly its bytes `1 .. len`. -/
theorem seRead_kopie (k : Konstanten) (data : Speicher) (len : Byte) (s : Welt)
    (hop : s.currentOpcode ≠ k.opInfo) (hklein : ∀ j, j < 101 → anzahl len s j < 256)
    (h0 : (seRead k data len s).1 = 0) :
    ∃ i, i < 101 ∧ anzahl len s i = len.toNat + 3 ∧
      (puffer len s (i + 1) 0).toNat = len.toNat + 3 ∧
      seCrc16Chain (len + 1) (puffer len s (i + 1)) (0, 0) =
        (puffer len s (i + 1) (len.toNat + 1), puffer len s (i + 1) (len.toNat + 2)) ∧
      (seRead k data len s).2.1 = data.schreibe 0 ((puffer len s (i + 1)).lies 1 len.toNat) := by
  have h := seRead_ergibt k len s data
  obtain ⟨i, ht, hi⟩ := referenz_rc_null _ (h.rc ▸ h0)
  obtain ⟨-, hi101, hu, -, -⟩ := ersterTreffer_spec _ ht
  simp only [urteilFolge, urteil, if_neg hop] at hu
  set R := puffer len s (i + 1)
  have ha := hklein i (by omega)
  split_ifs at hu with h4 hR hc
  have hR0 : R 0 = BitVec.ofInt 8 (anzahl len s i) := by
    by_contra hne
    rw [checkCrc, if_pos hne] at hc
    exact Bool.false_ne_true hc
  have hA : anzahl len s i = len.toNat + 3 := by
    have := congrArg BitVec.toNat hR0
    rw [hR, BitVec.toNat_ofInt] at this
    omega
  have hL : (BitVec.ofInt 8 (anzahl len s i)).toNat = len.toNat + 3 := by rw [← hR0, hR]
  have hl1 : (len + 1).toNat = len.toNat + 1 := by
    have := (R 0).isLt
    rw [BitVec.toNat_add, show (1 : Byte).toNat = 1 from rfl]
    omega
  obtain ⟨-, hcrc⟩ := (checkCrc_eq R _ (by omega)).mp hc
  rw [hL, show len.toNat + 3 - 2 = len.toNat + 1 by omega, show len.toNat + 3 - 1 = len.toNat + 2 by omega]
    at hcrc
  refine ⟨i, by omega, hA, hR, ?_, ?_⟩
  · rw [seCrc16Chain_eq, hl1, register_null, hcrc, registerBytes_register]
  · rw [h.daten, hi]
    dsimp only
    rw [hA]
    simp

theorem seRead_kopie_einByte :
    einByteWelt.currentOpcode ≠ konstantenBeispiel.opInfo ∧
      (seRead konstantenBeispiel (fun _ => 0) 1 einByteWelt).1 = 0 ∧
      ∃ i, i < 101 ∧ anzahl 1 einByteWelt i = (1 : Byte).toNat + 3 := by
  have h0 : (seRead konstantenBeispiel (fun _ => 0) 1 einByteWelt).1 = 0 := by
    rw [(seRead_ergibt konstantenBeispiel 1 einByteWelt (fun _ => 0)).rc,
      (seRead_ehrlich konstantenBeispiel (fun _ => 0) 1 einByteWelt [4, 0] rfl (by decide)
        (by decide) (by decide) (by decide) rfl).1]
  obtain ⟨i, hi, ha, -⟩ := seRead_kopie konstantenBeispiel (fun _ => 0) 1 einByteWelt (by decide)
    (fun j _ => by rw [anzahl_einByteWelt]; decide) h0
  exact ⟨by decide, h0, i, hi, ha⟩

/-- **An honest chip: accepted at the first attempt**: for an opcode other than `OP_Info` and
    `1 ≤ len ≤ 252`, when the next answer is the pulses of a frame `mitCrc x` of `len + 3` bytes
    that starts with `len + 3`, `se_read` returns `0` after one attempt -- one `IOFLAG_TX`, then
    `IOFLAG_IDLE`, one answer taken, no retry counted -- and `data` receives `x` without its
    length byte. -/
theorem seRead_antwortet (k : Konstanten) (data : Speicher) (len : Byte) (s : Welt)
    (x : List Byte) (hx : x.length = len.toNat + 1) (h1 : 1 ≤ len.toNat) (h255 : len.toNat + 3 ≤ 255)
    (hx0 : x[0]? = some (BitVec.ofNat 8 (len.toNat + 3))) (hop : s.currentOpcode ≠ k.opInfo)
    (ha : (s.antwort s.gelesen).pulse = (mitCrc x).flatMap sendBits) :
    (seRead k data len s).1 = 0 ∧ (seRead k data len s).2.1 = data.schreibe 0 (x.drop 1) ∧
      (seRead k data len s).2.2.tx = s.tx ++ sendBits Ioflag.tx.wert ++ sendBits Ioflag.idle.wert ∧
      (seRead k data len s).2.2.gelesen = s.gelesen + 1 ∧
      (seRead k data len s).2.2.stats.lnRetry = s.stats.lnRetry ∧
      (seRead k data len s).2.2.stats.retryOut = s.stats.retryOut := by
  obtain ⟨hr, hd⟩ := seRead_ehrlich k data len s x hx h1 h255 hx0 hop ha
  have e := seRead_ergibt k len s data
  rw [hr] at e
  exact ⟨e.rc, hd, by simpa using e.tx, e.gelesen, by simpa using e.lnRetry,
    by simpa using e.retryOut⟩

theorem seRead_antwortet_einByte : [4, 0].length = (1 : Byte).toNat + 1 ∧
    (seRead konstantenBeispiel (fun _ => 0) 1 einByteWelt).1 = 0 :=
  ⟨rfl, (seRead_antwortet konstantenBeispiel (fun _ => 0) 1 einByteWelt [4, 0] rfl (by decide)
    (by decide) (by decide) (by decide) rfl).1⟩

end PassportSe
