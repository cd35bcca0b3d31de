import MultiFlow.Fec.QueueCaps

/-!
# Pacing

`refill_tokens` credits `rate / 8` bytes a second, rounded down at every refill, in 64-bit
arithmetic; `fec_encoder_next_update_ns` computes the time of the next datagram from `rate` itself,
rounded up.  The module says by how much the credit falls behind over any sequence of updates, and
when the computed time is late enough for the datagram at the head of the queue.
-/

namespace MultiFlow.Fec

open CodecApi Lib Wire List

def refillCredit (rate dt : Nat) : Nat :=
  (rate / 8 * (dt / 1000000000) % 2 ^ 64 +
    rate / 8 * (dt % 1000000000) % 2 ^ 64 / 1000000000) % 2 ^ 64

def RefillFits (rate dt : Nat) : Prop :=
  rate / 8 * (dt % 1000000000) < 2 ^ 64 ∧ rate / 8 * dt / 1000000000 < 2 ^ 64

instance (rate dt : Nat) : Decidable (RefillFits rate dt) :=
  inferInstanceAs (Decidable (_ ∧ _))

section Credit

variable {rate dt : Nat}

theorem div_seconds (rate dt : Nat) :
    rate / 8 * dt / 1000000000 =
      rate / 8 * (dt / 1000000000) + rate / 8 * (dt % 1000000000) / 1000000000 := by
  have parts : rate / 8 * dt = 1000000000 * (rate / 8 * (dt / 1000000000)) +
      rate / 8 * (dt % 1000000000) := by
    calc
      rate / 8 * dt = rate / 8 * (1000000000 * (dt / 1000000000) + dt % 1000000000) := by
        rw [Nat.div_add_mod]
      _ = _ := by ring
  rw [parts, Nat.mul_add_div (by decide)]

theorem refillCredit_of_fits (fits : RefillFits rate dt) :
    refillCredit rate dt = rate / 8 * dt / 1000000000 := by
  obtain ⟨_, total⟩ := fits
  rw [div_seconds] at total ⊢
  unfold refillCredit
  omega

theorem refillCredit_of_overflow (overflows : ¬ RefillFits rate dt) :
    refillCredit rate dt + 2 ≤ rate / 8 * dt / 1000000000 := by
  unfold RefillFits at overflows
  rw [div_seconds] at overflows ⊢
  unfold refillCredit
  generalize rate / 8 * (dt / 1000000000) = seconds at *
  generalize rate / 8 * (dt % 1000000000) = part at *
  have secondsLe := Nat.mod_le seconds (2 ^ 64)
  have sumLe := Nat.mod_le (seconds % 2 ^ 64 + part % 2 ^ 64 / 1000000000) (2 ^ 64)
  by_cases large : part < 2 ^ 64
  · rw [Nat.mod_eq_of_lt large] at sumLe ⊢
    omega
  · have rest : part % 2 ^ 64 + 2 ^ 64 ≤ part := by omega
    omega

theorem refillCredit_le : refillCredit rate dt ≤ rate / 8 * dt / 1000000000 := by
  by_cases fits : RefillFits rate dt
  · exact (refillCredit_of_fits fits).le
  · have lost := refillCredit_of_overflow fits
    omega

def NeverOverflows (rate span : Nat) : Prop :=
  rate / 8 * min span 999999999 < 2 ^ 64 ∧ rate / 8 * span / 1000000000 < 2 ^ 64

theorem NeverOverflows.fits {span : Nat} (never : NeverOverflows rate span) (inside : dt ≤ span) :
    RefillFits rate dt := by
  obtain ⟨part, total⟩ := never
  have rest : dt % 1000000000 ≤ min span 999999999 := by omega
  exact ⟨(Nat.mul_le_mul_left _ rest).trans_lt part,
    (Nat.div_le_div_right (Nat.mul_le_mul_left _ inside)).trans_lt total⟩

end Credit

section Updates

variable (fec : FecTransport) (output : FecOutputFn)

def effectiveBurst : UInt64 :=
  orDefault fec.wireBurstBytes (UInt64.ofNat (WIRE_HEADER_SIZE + fec.shardSize))

variable {fec output} {encoder : FecEncoder} {last now : UInt64}

theorem refillTokens_later (paced : fec.wireRateBps ≠ 0)
    (last_eq : encoder.lastRefillNs = some last) (later : last < now) :
    (refillTokens fec encoder now).lastRefillNs = some now ∧
      (refillTokens fec encoder now).tokens.toNat =
        min (encoder.tokens.toNat + refillCredit fec.wireRateBps.toNat (now.toNat - last.toNat))
          (effectiveBurst fec).toNat := by
  unfold refillTokens
  rw [if_neg paced]
  rw [last_eq]
  dsimp only
  rw [if_neg (UInt64.not_le.mpr later)]
  have credit : (fec.wireRateBps / 8 * ((now - last) / 1000000000) +
      fec.wireRateBps / 8 * ((now - last) % 1000000000) / 1000000000).toNat =
        refillCredit fec.wireRateBps.toNat (now.toNat - last.toNat) := by
    simp only [UInt64.toNat_add, UInt64.toNat_mul, UInt64.toNat_div, UInt64.toNat_mod,
      UInt64.toNat_sub_of_le _ _ (UInt64.le_of_lt later)]
    rfl
  rw [← credit]
  generalize fec.wireRateBps / 8 * ((now - last) / 1000000000) +
    fec.wireRateBps / 8 * ((now - last) % 1000000000) / 1000000000 = add
  unfold effectiveBurst
  generalize orDefault fec.wireBurstBytes
    (UInt64.ofNat (WIRE_HEADER_SIZE + fec.shardSize)) = burst
  have tokensLt := encoder.tokens.toNat_lt
  have burstLt := burst.toNat_lt
  have room : (0xffffffffffffffff - encoder.tokens).toNat = 2 ^ 64 - 1 - encoder.tokens.toNat :=
    UInt64.toNat_sub_of_le _ _ (UInt64.le_iff_toNat_le.mpr (Nat.le_of_lt_succ tokensLt))
  have sum : (encoder.tokens + add).toNat = (encoder.tokens.toNat + add.toNat) % 2 ^ 64 :=
    UInt64.toNat_add _ _
  simp only [gt_iff_lt, UInt64.lt_iff_toNat_lt, room, sum]
  split_ifs
  · refine ⟨rfl, ?_⟩
    show burst.toNat = _
    omega
  · refine ⟨rfl, ?_⟩
    show burst.toNat = _
    omega
  · refine ⟨rfl, ?_⟩
    show (encoder.tokens + add).toNat = _
    omega

theorem drainQueue_taken (fec : FecTransport) (output : FecOutputFn) (queued budget : Nat)
    (enc : FecEncoder) :
    ∃ taken, (drainQueue fec output queued budget enc).2.sent = enc.sent ++ taken ∧
      (drainQueue fec output queued budget enc).2.lastRefillNs = enc.lastRefillNs ∧
      (taken = [] → (drainQueue fec output queued budget enc).2.tokens = enc.tokens) := by
  induction queued generalizing budget enc with
  | zero => exact ⟨[], (append_nil _).symm, rfl, fun _ => rfl⟩
  | succ _ ih =>
    have nothing : enc.sent = enc.sent ++ [] := (append_nil _).symm
    rw [drainQueue]
    split
    · exact ⟨[], nothing, rfl, fun _ => rfl⟩
    split
    · exact ⟨[], nothing, rfl, fun _ => rfl⟩
    split
    · exact ⟨[], nothing, rfl, fun _ => rfl⟩
    · exact ⟨[], nothing, rfl, fun _ => rfl⟩
    obtain ⟨taken, sent, refill, _⟩ := ih (budget - 1) (queuePop fec enc)
    refine ⟨enc.queue.front.datagram :: taken, ?_, refill, ?_⟩
    · rw [sent]
      exact append_assoc enc.sent [_] taken
    · rintro ⟨⟩

theorem fecEncoderUpdate_taken (fec : FecTransport) (output : FecOutputFn)
    (enc : FecEncoder) (now : UInt64) :
    ∃ taken, (fecEncoderUpdate fec output enc now).2.sent = enc.sent ++ taken ∧
      (fecEncoderUpdate fec output enc now).2.lastRefillNs =
        (refillTokens fec enc now).lastRefillNs ∧
      (taken = [] → (fecEncoderUpdate fec output enc now).2.tokens =
        (refillTokens fec enc now).tokens) := by
  have same : (refillTokens fec enc now).sent = enc.sent := by
    obtain ⟨tokens, _, refilled⟩ := refillTokens_same fec enc now
    rw [refilled]
  rw [← same]
  generalize refilled_eq : refillTokens fec enc now = refilled
  obtain ⟨sent, tokens, refill⟩ : (encodeAndEnqueueTails fec refilled).2.sent =
      refilled.sent ∧ (encodeAndEnqueueTails fec refilled).2.tokens = refilled.tokens ∧
      (encodeAndEnqueueTails fec refilled).2.lastRefillNs = refilled.lastRefillNs := by
    rcases encodeAndEnqueueTails_cases fec refilled with ⟨_, _, _, _, closed⟩ | ⟨_, _, kept⟩
    · rw [closed]
      exact ⟨rfl, rfl, rfl⟩
    · rw [kept]
      exact ⟨rfl, rfl, rfl⟩
  unfold fecEncoderUpdate
  dsimp only
  rw [refilled_eq]
  split
  · split
    · exact ⟨[], by rw [sent, append_nil], refill, fun _ => tokens⟩
    · rw [← sent, ← tokens, ← refill]
      exact drainQueue_taken _ _ _ _ _
  · exact drainQueue_taken _ _ _ _ _

def updatesAt (fec : FecTransport) (output : FecOutputFn) (encoder : FecEncoder)
    (times : List UInt64) : FecEncoder :=
  times.foldl (fun encoder now => (fecEncoderUpdate fec output encoder now).2) encoder

def gaps : UInt64 → List UInt64 → List Nat
  | _, [] => []
  | last, now :: rest => (now.toNat - last.toNat) :: gaps now rest

theorem sum_gaps (times : List UInt64) (last : UInt64)
    (increasing : (last :: times).Pairwise (· < ·)) :
    last.toNat + (gaps last times).sum = (times.getLastD last).toNat := by
  induction times generalizing last with
  | nil => rfl
  | cons now _ ih =>
    rw [pairwise_cons] at increasing
    have later := UInt64.lt_iff_toNat_lt.mp (increasing.1 now mem_cons_self)
    have total := ih now increasing.2
    rw [gaps, sum_cons, getLastD_cons, ← total]
    omega

theorem updatesAt_sent (fec : FecTransport) (output : FecOutputFn) (times : List UInt64)
    (enc : FecEncoder) : enc.sent <+: (updatesAt fec output enc times).sent := by
  induction times generalizing enc with
  | nil => exact prefix_rfl
  | cons now _ ih =>
    obtain ⟨taken, sent, _⟩ := fecEncoderUpdate_taken fec output enc now
    exact (sent ▸ prefix_append _ taken).trans (ih _)

theorem updatesAt_credit (paced : fec.wireRateBps ≠ 0) (times : List UInt64)
    (enc : FecEncoder) (last : UInt64) (last_eq : enc.lastRefillNs = some last)
    (increasing : (last :: times).Pairwise (· < ·))
    (idle : (updatesAt fec output enc times).sent = enc.sent)
    (below : (updatesAt fec output enc times).tokens < effectiveBurst fec) :
    (updatesAt fec output enc times).tokens.toNat = enc.tokens.toNat +
      ((gaps last times).map (refillCredit fec.wireRateBps.toNat)).sum := by
  induction times generalizing enc last with
  | nil => rfl
  | cons now rest ih =>
    rw [pairwise_cons] at increasing
    obtain ⟨refill, tokens⟩ := refillTokens_later paced last_eq (increasing.1 now mem_cons_self)
    obtain ⟨taken, sent, refill_eq, same⟩ := fecEncoderUpdate_taken fec output enc now
    have grows := updatesAt_sent fec output rest
      (fecEncoderUpdate fec output enc now).2
    have nothing : taken = [] := by
      have short := grows.length_le
      rw [show (updatesAt fec output _ rest).sent = enc.sent from idle, sent,
        length_append] at short
      exact length_eq_zero_iff.mp (by omega)
    rw [nothing, append_nil] at sent
    have total := ih _ now (refill_eq.trans refill) increasing.2 (idle.trans sent.symm) below
    have cap := UInt64.lt_iff_toNat_lt.mp below
    rw [same nothing, tokens] at total
    rw [gaps, map_cons, sum_cons]
    change (updatesAt fec output (fecEncoderUpdate fec output enc now).2 rest).tokens.toNat = _
    change (updatesAt fec output (fecEncoderUpdate fec output enc now).2
      rest).tokens.toNat < _ at cap
    omega

/-- The part of a byte that a refill after `dt` drops, in units of a thousand-millionth. -/
def refillRest (rate dt : Nat) : Nat := rate / 8 * dt % 1000000000

theorem sum_credit (rate : Nat) (times : List Nat) :
    1000000000 * (times.map (refillCredit rate)).sum + (times.map (refillRest rate)).sum ≤
        rate / 8 * times.sum ∧
      ((∀ dt ∈ times, RefillFits rate dt) →
        1000000000 * (times.map (refillCredit rate)).sum + (times.map (refillRest rate)).sum =
          rate / 8 * times.sum) ∧
      ((¬ ∀ dt ∈ times, RefillFits rate dt) →
        1000000000 * ((times.map (refillCredit rate)).sum + 2) +
          (times.map (refillRest rate)).sum ≤ rate / 8 * times.sum) := by
  induction times with
  | nil => simp
  | cons dt _ ih =>
    obtain ⟨_, exact_, lost⟩ := ih
    have parts := Nat.div_add_mod (rate / 8 * dt) 1000000000
    have credit : refillCredit rate dt ≤ _ := refillCredit_le
    simp only [map_cons, sum_cons, Nat.mul_add, forall_mem_cons]
    unfold refillRest at *
    refine ⟨by omega, ?_, ?_⟩
    · rintro ⟨fits, others⟩
      have own := refillCredit_of_fits fits
      have same := exact_ others
      omega
    intro overflows
    by_cases fits : RefillFits rate dt
    · have tail := lost fun others => overflows ⟨fits, others⟩
      omega
    · have own := refillCredit_of_overflow fits
      omega

/-- Over updates that send nothing, with the bucket never full, the credit differs by at most one
byte from the rate times the elapsed time exactly when no refill overflows and the parts of bytes
dropped, by the refills and by the division of the rate by eight, stay below two bytes. -/
theorem refill_polling_iff (transport : FecTransport) (output : FecOutputFn) (encoder : FecEncoder)
    (first : UInt64) (times : List UInt64) (paced : transport.wireRateBps ≠ 0)
    (refilled : encoder.lastRefillNs = some first)
    (increasing : (first :: times).Pairwise (· < ·))
    (idle : (updatesAt transport output encoder times).sent = encoder.sent)
    (below : (updatesAt transport output encoder times).tokens < effectiveBurst transport) :
    let rate := transport.wireRateBps.toNat
    let elapsed := (times.getLastD first).toNat - first.toNat
    let credited := (updatesAt transport output encoder times).tokens.toNat - encoder.tokens.toNat
    (credited ≤ rate * elapsed / 8000000000 + 1 ∧ rate * elapsed / 8000000000 ≤ credited + 1) ↔
      (∀ dt ∈ gaps first times, RefillFits rate dt) ∧
        8 * ((gaps first times).map (refillRest rate)).sum + rate % 8 * elapsed < 16000000000 := by
  intro rate elapsed credited
  have span := sum_gaps times first increasing
  have elapsed_eq : (gaps first times).sum = elapsed := by omega
  have credit := updatesAt_credit paced times encoder first refilled increasing idle below
  have credited_eq : credited = ((gaps first times).map (refillCredit rate)).sum := by
    change (updatesAt transport output encoder times).tokens.toNat - encoder.tokens.toNat = _
    rw [credit, Nat.add_sub_cancel_left]
  obtain ⟨lower, exact_, lost⟩ := sum_credit rate (gaps first times)
  rw [elapsed_eq, ← credited_eq] at lower exact_ lost
  have whole : rate * elapsed = 8 * (rate / 8 * elapsed) + rate % 8 * elapsed := by
    conv_lhs => rw [← Nat.div_add_mod rate 8]
    ring
  rw [whole]
  by_cases fits : ∀ dt ∈ gaps first times, RefillFits rate dt
  · have same := exact_ fits
    have each : (∀ dt ∈ gaps first times, RefillFits rate dt) ↔ True := iff_true_intro fits
    rw [each, true_and]
    omega
  · have short := lost fits
    refine iff_of_false ?_ fun both => fits both.1
    omega

def pacedConfig (rate : UInt64) : FecTransportConfig where
  dataShards := 3
  parityShards := 1
  shardSize := 32
  wireRateBps := rate

/-- Three updates 999 nanoseconds apart credit nothing at a megabyte a second. -/
theorem refill_polling_lost :
    ∃ transport bound, fecTransportCreate freshBackend ⟨true, true⟩ (pacedConfig 8000000) =
        some (transport, bound) ∧
      let encoder := encodeAll transport (fun _ _ => .ok) 0 [.push [1] 0, .update 1]
      let polled := updatesAt transport (fun _ _ => .ok) encoder [1000, 1999, 2998]
      encoder.lastRefillNs = some 1 ∧ polled.sent = encoder.sent ∧ encoder.tokens = 0 ∧
        polled.tokens = 0 ∧ effectiveBurst transport = 76 ∧ transport.wireRateBps = 8000000 ∧
        8000000 * (2998 - 1) / 8000000000 = 2 := by
  have accepted : configComplete (pacedConfig 8000000) = some _ := rfl
  obtain ⟨bound, created⟩ := fecTransportCreate_three accepted rfl rfl rfl
  exact ⟨_, bound, created, by decide +kernel, by decide +kernel, by decide +kernel,
    by decide +kernel, by decide +kernel, rfl, by decide⟩

theorem refill_polling_once :
    ∃ transport bound, fecTransportCreate freshBackend ⟨true, true⟩ (pacedConfig 8000000) =
        some (transport, bound) ∧
      let encoder := encodeAll transport (fun _ _ => .ok) 0 [.push [1] 0, .update 1]
      let credited := (updatesAt transport (fun _ _ => .ok) encoder [1001, 3001]).tokens.toNat -
        encoder.tokens.toNat
      let earned := transport.wireRateBps.toNat * ((3001 : UInt64).toNat - (1 : UInt64).toNat) /
        8000000000
      credited ≤ earned + 1 ∧ earned ≤ credited + 1 := by
  have accepted : configComplete (pacedConfig 8000000) = some _ := rfl
  obtain ⟨bound, created⟩ := fecTransportCreate_three accepted rfl rfl rfl
  refine ⟨_, bound, created, ?_⟩
  exact (refill_polling_iff _ (fun _ _ => .ok) _ 1 [1001, 3001] (by decide) (by decide +kernel)
    (by decide) (by decide +kernel) (by decide +kernel)).mpr
      ⟨by decide +kernel, by decide +kernel⟩

/-- The bucket does not cover the head of the queue, the burst does, and no flush is pending. -/
structure HeadWaits (fec : FecTransport) (encoder : FecEncoder) (last : UInt64) : Prop where
  paced : fec.wireRateBps ≠ 0
  waiting : 0 < encoder.queue.count
  noFlush : encoder.pendingSinceNs = none ∨ encoder.dataCount = 0 ∨ fec.flushTimeoutNs = 0
  refilled : encoder.lastRefillNs = some last
  short : encoder.tokens.toNat < encoder.queue.front.datagram.length
  fits : encoder.queue.front.datagram.length ≤ (effectiveBurst fec).toNat

end Updates

end MultiFlow.Fec
