import NexaHR.System.OutboxSteps
import NexaHR.Foundations.Lasting

/-! # Attempts to deliver

A row is tried again after a failure, later each time, until it is sent or abandoned. A declared failure
counts against the limit of attempts.

* `becomesSent`, `Counted`: what the row of a key says of its history.
* `delivery_attempts_bounded`: what holds in every run of sweeps.
* `head_of_line_iff`: when a sweep reaches a row that it can send.
-/

namespace NexaHR

open Foundations

set_option autoImplicit false

/-! ## What is said of a row -/

/-- The row `k` is marked as sent in the step. -/
def becomesSent (k : Nat) (x : Taken Outbox OutboxEvent) : Bool :=
  (x.after.deliveries.get? k).any (fun d => d.status = .sent) &&
    !(x.before.deliveries.get? k).any fun d => d.status = .sent

/-- The status is not tried again. -/
def DeliveryStatus.isFinal (status : DeliveryStatus) : Bool := status = .sent || status = .abandoned

/-- What came of the attempt was foreseen: the message went out, or the channel declined it. -/
def SendResult.isForeseen : SendResult → Bool
  | .crashed _ => false
  | _ => true

section

variable {S : DeliverySettings} {o o' : Outbox} {k : Nat} {d : NotificationDelivery}
  {tr : List (Taken Outbox OutboxEvent)} {calls : List SendCall}

/-! ## The retry delay -/

theorem retryDelay_ok_iff {attempts delay : Nat} :
    retryDelay S attempts = .ok delay ↔
      S.deliveryRetryBaseMinutes * 2 ^ (attempts - 1) < 1440 * 10 ^ 9 ∧
        delay = S.deliveryRetryBaseMinutes * 2 ^ (attempts - 1) * 60 := by
  unfold retryDelay maxDays
  simp only [bind_eq_ok, pure_eq_ok, ensure_eq_ok]
  generalize S.deliveryRetryBaseMinutes * 2 ^ (attempts - 1) = minutes
  constructor
  · rintro ⟨-, hle, rfl⟩
    exact ⟨by omega, rfl⟩
  · rintro ⟨hlt, rfl⟩
    exact ⟨(), by omega, rfl⟩

/-- The delay grows with the attempts. -/
theorem retryDelay_of_le {attempts most : Nat} (hle : attempts ≤ most)
    (hmost : S.deliveryRetryBaseMinutes * 2 ^ (most - 1) < 1440 * 10 ^ 9) :
    retryDelay S attempts = .ok (S.deliveryRetryBaseMinutes * 2 ^ (attempts - 1) * 60) := by
  rw [retryDelay_ok_iff]
  have hpow : 2 ^ (attempts - 1) ≤ 2 ^ (most - 1) := Nat.pow_le_pow_right (by decide) (by omega)
  have hmul := Nat.mul_le_mul_left S.deliveryRetryBaseMinutes hpow
  exact ⟨by omega, rfl⟩

/-! ## Sent once -/

/-- A row that is sent or abandoned is left alone. -/
theorem RowChange.final_stays (h : RowChange S o k o' calls) (hget : o.deliveries.get? k = some d)
    (hfinal : d.status.isFinal = true) :
    calls = [] ∧ ∀ d', o'.deliveries.get? k = some d' → d' = d := by
  cases h with
  | kept hsame =>
    refine ⟨rfl, ?_⟩
    intro d' hd'
    rw [hsame, hget] at hd'
    exact (Option.some.inj hd').symm
  | gone hgone =>
    refine ⟨rfl, ?_⟩
    intro d' hd'
    rw [hgone] at hd'
    cases hd'
  | queued d' hnew =>
    have hle := Table.le_seq_of_get? hget
    omega
  | attempted d' hget' hwaiting =>
    rw [hget] at hget'
    cases hget'
    unfold DeliveryStatus.isFinal at hfinal
    unfold NotificationDelivery.isWaiting at hwaiting
    cases hstatus : d.status <;> simp [hstatus] at hfinal hwaiting

/-- The key was given, and whatever row bears it is sent. -/
def IsSent (k : Nat) (o : Outbox) : Prop := Table.Settled (fun d => d.status = .sent) k o.deliveries

theorem isSent_of_get? (hget : o.deliveries.get? k = some d) (hsent : d.status = .sent) : IsSent k o := by
  have hsettled := Table.settled_of_mem (P := fun d : NotificationDelivery => d.status = .sent)
    (Table.mem_of_get? hget) hsent
  have hkey : HasId.id d = k := Table.id_of_get? hget
  rw [hkey] at hsettled
  exact hsettled

theorem IsSent.of_get? (h : IsSent k o) (hget : o.deliveries.get? k = some d) : d.status = .sent :=
  h.2 d (Table.mem_of_get? hget) (Table.id_of_get? hget)

/-- A row of a sent key is the row that was there. -/
theorem IsSent.same_row (h : IsSent k o) (hrow : RowChange S o k o' calls)
    (hget' : o'.deliveries.get? k = some d) : o.deliveries.get? k = some d := by
  cases hrow with
  | kept hsame => rw [← hsame, hget']
  | gone hgone =>
    rw [hgone] at hget'
    cases hget'
  | queued d' hnew =>
    have hle := h.1
    omega
  | attempted d' hget hwaiting =>
    have hsent := h.of_get? hget
    unfold NotificationDelivery.isWaiting at hwaiting
    rw [hsent] at hwaiting
    cases hwaiting

theorem IsSent.step {e : OutboxEvent} (h : IsSent k o) (hstep : OutboxSteps S o e o') : IsSent k o' := by
  obtain ⟨hrow, hle⟩ := rowChange_of_steps hstep k
  refine ⟨Nat.le_trans h.1 hle, ?_⟩
  intro d hd hid
  have hget' : o'.deliveries.get? k = some d := by
    rw [← hid]
    exact Table.get?_of_mem hd
  exact h.of_get? (h.same_row hrow hget')

theorem isSent_of_becomesSent {x : Taken Outbox OutboxEvent} (h : becomesSent k x = true) :
    IsSent k x.after ∧ ∀ d, x.before.deliveries.get? k = some d → d.status ≠ .sent := by
  unfold becomesSent at h
  rw [Bool.and_eq_true, Option.any_eq_true] at h
  obtain ⟨⟨d, hget, hsent⟩, hbefore⟩ := h
  refine ⟨isSent_of_get? hget (by simpa using hsent), ?_⟩
  intro d₀ hget₀ hsent₀
  simp [hget₀, hsent₀] at hbefore

/-- A row is marked as sent once, for every run. -/
theorem becomesSent_once (h : OutboxRun S tr o) (k : Nat) :
    tr.countP (becomesSent k) ≤ 1 ∧ (0 < tr.countP (becomesSent k) → IsSent k o) := by
  refine h.invariant_of_history
    (P := fun tr o => tr.countP (becomesSent k) ≤ 1 ∧ (0 < tr.countP (becomesSent k) → IsSent k o))
    (C := fun _ => True) ?_ ?_ (fun _ _ => trivial)
  · intro o _
    exact ⟨Nat.zero_le 1, fun hpos => absurd hpos (Nat.lt_irrefl 0)⟩
  · intro tr o e o' ⟨honce, hsent⟩ hstep _
    by_cases hbecomes : becomesSent k ⟨o, e, o'⟩ = true
    · obtain ⟨hafter, hbefore⟩ := isSent_of_becomesSent hbecomes
      have hzero : tr.countP (becomesSent k) = 0 := by
        by_contra hne
        have hwas := hsent (Nat.pos_of_ne_zero hne)
        unfold becomesSent at hbecomes
        rw [Bool.and_eq_true, Option.any_eq_true] at hbecomes
        obtain ⟨⟨d, hget', -⟩, -⟩ := hbecomes
        have hget := hwas.same_row (rowChange_of_steps hstep k).1 hget'
        exact hbefore d hget (hwas.of_get? hget)
      rw [List.countP_cons_of_pos hbecomes, hzero]
      exact ⟨Nat.le_refl 1, fun _ => hafter⟩
    · rw [List.countP_cons_of_neg hbecomes]
      exact ⟨honce, fun hpos => (hsent hpos).step hstep⟩

/-! ## The number of attempts -/

theorem attemptsOf_cons (x : Taken Outbox OutboxEvent) :
    attemptsOf S k (x :: tr) = attemptsAt S k x ++ attemptsOf S k tr := List.flatMap_cons

/-- What the row of a key says of the attempts to deliver it. -/
structure Counted (S : DeliverySettings) (k : Nat) (tr : List (Taken Outbox OutboxEvent)) (o : Outbox) :
    Prop where
  given : attemptsOf S k tr ≠ [] → k ≤ o.deliveries.seq
  counted : ∀ d, o.deliveries.get? k = some d → d.attempts = (attemptsOf S k tr).length
  bounded : (∀ call ∈ attemptsOf S k tr, call.result.isForeseen = true) →
    (attemptsOf S k tr).length ≤ max 1 S.deliveryMaxAttempts ∧
      ∀ d, o.deliveries.get? k = some d → d.isWaiting = true →
        d.attempts = 0 ∨ d.attempts < S.deliveryMaxAttempts

/-- After a foreseen result the row waits only below the limit. -/
theorem progressAfter_waiting {now : Nat} {result : SendResult} (hforeseen : result.isForeseen = true)
    (hwaiting : (d.withProgress (progressAfter S now d result)).isWaiting = true) :
    d.attempts + 1 < S.deliveryMaxAttempts := by
  cases result with
  | delivered sentAt => cases hwaiting
  | declined message retryable =>
    by_contra hle
    have habandoned : (progressAfter S now d (.declined message retryable)).status = .abandoned := by
      unfold progressAfter
      exact if_pos (Or.inr (by omega))
    have hstatus : (d.withProgress (progressAfter S now d (.declined message retryable))).status =
        .abandoned := habandoned
    unfold NotificationDelivery.isWaiting at hwaiting
    rw [hstatus] at hwaiting
    cases hwaiting
  | crashed message => cases hforeseen

theorem progressAfter_attempts (now : Nat) (result : SendResult) :
    (d.withProgress (progressAfter S now d result)).attempts = d.attempts + 1 := by
  cases result <;> rfl

theorem counted_step {e : OutboxEvent} (h : Counted S k tr o) (hstep : OutboxSteps S o e o') :
    Counted S k (⟨o, e, o'⟩ :: tr) o' := by
  obtain ⟨hrow, hle⟩ := rowChange_of_steps hstep k
  have hcons := @attemptsOf_cons S k tr ⟨o, e, o'⟩
  generalize attemptsAt S k ⟨o, e, o'⟩ = calls at hrow hcons
  cases hrow with
  | kept hsame =>
    rw [List.nil_append] at hcons
    constructor
    · rw [hcons]
      exact fun hne => Nat.le_trans (h.given hne) hle
    · rw [hcons, hsame]
      exact h.counted
    · rw [hcons, hsame]
      exact h.bounded
  | gone hgone =>
    rw [List.nil_append] at hcons
    have hnone : ∀ d, o'.deliveries.get? k ≠ some d := by simp [hgone]
    constructor
    · rw [hcons]
      exact fun hne => Nat.le_trans (h.given hne) hle
    · exact fun d hd => absurd hd (hnone d)
    · rw [hcons]
      exact fun hforeseen => ⟨(h.bounded hforeseen).1, fun d hd => absurd hd (hnone d)⟩
  | queued d hnew hget hstatus hattempts =>
    have hnil : attemptsOf S k tr = [] := by
      by_contra hne
      have hgiven := h.given hne
      omega
    rw [List.nil_append, hnil] at hcons
    constructor
    · rw [hcons]
      exact fun hne => absurd rfl hne
    · intro d' hd'
      rw [hget] at hd'
      cases hd'
      rw [hcons]
      exact hattempts
    · rw [hcons]
      refine fun _ => ⟨Nat.zero_le _, ?_⟩
      intro d' hd' _
      rw [hget] at hd'
      cases hd'
      exact Or.inl hattempts
  | attempted d hget hwaiting now call hget' =>
    rw [List.singleton_append] at hcons
    have hcount := h.counted d hget
    constructor
    · exact fun _ => Nat.le_trans (Table.le_seq_of_get? hget) hle
    · intro d' hd'
      rw [hget'] at hd'
      cases hd'
      rw [hcons, progressAfter_attempts, hcount, List.length_cons]
    · intro hforeseen
      rw [hcons] at hforeseen ⊢
      obtain ⟨-, hbelow⟩ := h.bounded fun call' hcall' => hforeseen call' (List.mem_cons_of_mem _ hcall')
      have hnow := hbelow d hget hwaiting
      rw [List.length_cons]
      constructor
      · omega
      · intro d' hd' hwaiting'
        rw [hget'] at hd'
        cases hd'
        right
        rw [progressAfter_attempts]
        exact progressAfter_waiting (hforeseen call List.mem_cons_self) hwaiting'

theorem counted_of_run (h : OutboxRun S tr o) (k : Nat) : Counted S k tr o := by
  refine h.invariant_of_history (P := fun tr o => Counted S k tr o) (C := fun _ => True) ?_ ?_
    (fun _ _ => trivial)
  · rintro o rfl
    constructor
    · exact fun hne => absurd rfl hne
    · intro d hd
      cases hd
    · refine fun _ => ⟨Nat.zero_le _, ?_⟩
      intro d hd
      cases hd
  · intro tr o e o' hcounted hstep _
    exact counted_step hcounted hstep

/-! ## The attempts of a run -/

/-- A row is marked as sent at most once and is left alone once it is sent or abandoned. A row whose
attempts were all answered in a foreseen way is tried at most as often as the settings say, and then the
delay before its next attempt can be computed. -/
theorem delivery_attempts_bounded (h : OutboxRun S tr o) (k : Nat) :
    tr.countP (becomesSent k) ≤ 1 ∧
      (∀ x ∈ tr, ∀ d, x.before.deliveries.get? k = some d → d.status.isFinal = true →
        attemptsAt S k x = [] ∧ ∀ d', x.after.deliveries.get? k = some d' → d' = d) ∧
      ((∀ call ∈ attemptsOf S k tr, call.result.isForeseen = true) →
        (attemptsOf S k tr).length ≤ max 1 S.deliveryMaxAttempts ∧
          (S.deliveryRetryBaseMinutes * 2 ^ (max 1 S.deliveryMaxAttempts - 1) < 1440 * 10 ^ 9 →
            ∀ d, o.deliveries.get? k = some d → retryDelay S d.attempts =
              .ok (S.deliveryRetryBaseMinutes * 2 ^ (d.attempts - 1) * 60))) := by
  refine ⟨(becomesSent_once h k).1, ?_, ?_⟩
  · intro x hx d hget hfinal
    obtain ⟨-, hstep⟩ := h.step_of_mem hx
    exact (rowChange_of_steps hstep k).1.final_stays hget hfinal
  · intro hforeseen
    have hcounted := counted_of_run h k
    obtain ⟨hlength, -⟩ := hcounted.bounded hforeseen
    refine ⟨hlength, ?_⟩
    intro hdelay d hget
    have hattempts := hcounted.counted d hget
    exact retryDelay_of_le (by omega) hdelay

end

/-! ## A row that is tried again -/

/-- The outbox after an event: as the event leaves it, or as it was when the event raised. -/
def settledOutbox (S : DeliverySettings) (o : Outbox) (e : OutboxEvent) : Outbox :=
  match outboxStep S o e with
  | .ok o' => o'
  | .error _ => o

/-- Events that raise nothing, the newest first, are a run. -/
theorem outboxRun_replay {S : DeliverySettings} {es : List OutboxEvent}
    (h : ((replay (settledOutbox S) Outbox.empty es).all fun x =>
      (outboxStep S x.before x.label).isOk) = true) :
    OutboxRun S (replay (settledOutbox S) Outbox.empty es) (endState (settledOutbox S) Outbox.empty es) := by
  refine run_replay rfl ?_
  intro x hx
  have hok := List.all_eq_true.mp h x hx
  rw [after_replay hx]
  unfold OutboxSteps settledOutbox
  cases hstep : outboxStep S x.before x.label with
  | ok o' => rfl
  | error e =>
    rw [hstep] at hok
    cases hok

/-- A reminder to a user who is reached by electronic mail. -/
def reminder : OutboxEvent :=
  .notified 1 "sla_reminder" "M" none (some ⟨true, some "a@b", none, true, false⟩) true [.email] 0

/-- A sweep at a time, with one answer for every message. -/
def sweepAt (now : Nat) (result : SendResult) : OutboxEvent :=
  .swept { now := now, configured := [.email], send := fun _ _ => result }

/-- The network is down at first; ten minutes later the message goes out. -/
def retriedOnce : List OutboxEvent :=
  [sweepAt 600 (.delivered 600), sweepAt 0 (.declined "" true), reminder]

theorem retriedOnce_attempts : (attemptsOf {} 1 (replay (settledOutbox {}) Outbox.empty retriedOnce)).length ≤ 5 := by
  have hrun := @outboxRun_replay {} retriedOnce (by decide)
  have hforeseen : ∀ call ∈ attemptsOf {} 1 (replay (settledOutbox {}) Outbox.empty retriedOnce),
      call.result.isForeseen = true := by
    decide
  exact ((delivery_attempts_bounded hrun 1).2.2 hforeseen).1

/-- `failed` is not final, and a row is tried again after it. -/
theorem failed_delivery_is_tried_again :
    ¬∀ tr o, OutboxRun {} tr o → ∀ k,
      (attemptsOf {} k tr).length ≤ ({} : DeliverySettings).deliveryMaxAttempts ∧
        tr.countP (becomesSent k) ≤ 1 ∧
        (∀ x ∈ tr, ∀ d, x.before.deliveries.get? k = some d → d.status = .sent ∨ d.status = .failed →
          attemptsAt {} k x = []) ∧
        ∀ d, o.deliveries.get? k = some d → ∃ delay, retryDelay {} d.attempts = .ok delay := by
  intro hclaim
  have hrun := @outboxRun_replay {} retriedOnce (by decide)
  obtain ⟨-, -, hfinal, -⟩ := hclaim _ _ hrun 1
  have hnone := hfinal _ List.mem_cons_self
  have hfailed : ((endState (settledOutbox {}) Outbox.empty
      [sweepAt 0 (.declined "" true), reminder]).deliveries.get? 1).any (fun d => d.status = .failed) = true := by
    decide
  obtain ⟨d, hget, hd⟩ := (Option.any_eq_true _ _).mp hfailed
  have hattempt := hnone d hget (Or.inr (by simpa using hd))
  revert hattempt
  decide

/-! ## The head of the queue

A sweep reads four batches of waiting rows and works on one batch of those that are due, whether or not
their channels are configured. -/

section

variable {S : DeliverySettings} {o : Outbox} {s : DeliverySweep}

/-- The row is due, and its channel is configured. -/
def IsReady (S : DeliverySettings) (s : DeliverySweep) (d : NotificationDelivery) : Prop :=
  isDue S d s.now = .ok true ∧ d.channel ∈ s.configured

def HasReady (S : DeliverySettings) (o : Outbox) (s : DeliverySweep) : Prop :=
  ∃ d ∈ o.deliveries, d.isWaiting = true ∧ IsReady S s d

/-- The sweep is answered, and tries to deliver a row that is ready. -/
def AttemptsReady (S : DeliverySettings) (o : Outbox) (s : DeliverySweep) : Prop :=
  ∃ w, runDeliverySweep S o s = .ok w ∧
    ∃ call ∈ w.calls, ∃ d ∈ o.deliveries, d.id = call.deliveryId ∧ IsReady S s d

/-- A row that is ready stands among the first four batches of waiting rows, with less than a batch of
due rows before it, and for none of these rows the arithmetic on times fails. -/
def ReadyInFront (S : DeliverySettings) (o : Outbox) (s : DeliverySweep) : Prop :=
  (∀ d ∈ candidates S o s, ∃ b, isDue S d s.now = .ok b) ∧
    ∃ i d, (waitingRows o s)[i]? = some d ∧ IsReady S s d ∧ i < batchSize S s * 4 ∧
      ((waitingRows o s).take i).countP (fun d => isDue S d s.now = .ok true) < batchSize S s

theorem runDeliverySweep_of_decided (hconfigured : s.configured ≠ [])
    (h : ∀ d ∈ candidates S o s, ∃ b, isDue S d s.now = .ok b) :
    runDeliverySweep S o s = .ok ((batchOf S o s).foldl (deliver S s) { outbox := o }) := by
  obtain ⟨due, hdue⟩ := dueRows_of_decided h
  obtain ⟨-, rfl⟩ := dueRows_ok hdue
  unfold runDeliverySweep
  rw [if_neg hconfigured]
  simp only [bind_eq_ok, pure_eq_ok]
  exact ⟨_, hdue, rfl⟩

theorem calls_of_batch :
    ((batchOf S o s).foldl (deliver S s) { outbox := o }).calls = (batchOf S o s).filterMap (callFor s o) := by
  have hn : ∀ d ∈ batchOf S o s, (o.notifications.get? d.notificationId).isSome = true :=
    fun d hd => o.notified d (mem_batchOf hd).1
  have hcalls := (@foldl_deliver_spec S s (batchOf S o s) { outbox := o } (batchOf_nodup S o s) hn).1
  rw [hcalls]
  exact List.nil_append _

theorem attemptsReady_iff (hconfigured : s.configured ≠ []) :
    AttemptsReady S o s ↔ ReadyInFront S o s := by
  constructor
  · rintro ⟨w, hw, call, hcall, -⟩
    rcases runDeliverySweep_ok hw with ⟨hnone, -⟩ | ⟨hdecided, rfl⟩
    · exact absurd hnone hconfigured
    · rw [calls_of_batch] at hcall
      obtain ⟨d, hd, hfor⟩ := List.mem_filterMap.mp hcall
      obtain ⟨i, hi, hn, hdue, hm⟩ := mem_window_iff.mp hd
      have hchannel : d.channel ∈ s.configured := by
        unfold callFor at hfor
        split at hfor
        next hchannel => exact hchannel
        next => cases hfor
      exact ⟨hdecided, i, d, hi, ⟨by simpa using hdue, hchannel⟩, hn, hm⟩
  · rintro ⟨hdecided, i, d, hi, hready, hn, hm⟩
    have hbatch : d ∈ batchOf S o s := mem_window_iff.mpr ⟨i, hi, hn, by simpa using hready.1, hm⟩
    obtain ⟨hmem, -, -⟩ := mem_batchOf hbatch
    obtain ⟨n, hnotification⟩ := Option.isSome_iff_exists.mp (o.notified d hmem)
    have hfor : callFor s o d = some ⟨d.id, messageFor d n, s.send d.id (messageFor d n)⟩ := by
      unfold callFor
      rw [if_pos hready.2, hnotification, Option.map_some]
    refine ⟨_, runDeliverySweep_of_decided hconfigured hdecided, _, ?_, d, hmem, (callFor_id hfor).symm, hready⟩
    rw [calls_of_batch]
    exact List.mem_filterMap.mpr ⟨d, hbatch, hfor⟩

/-- A sweep with something ready to send tries to send something exactly when a ready row stands far
enough in front, for every content of the queue. -/
theorem head_of_line_iff (S : DeliverySettings) (o : Outbox) (s : DeliverySweep) :
    (HasReady S o s → AttemptsReady S o s) ↔ (HasReady S o s → ReadyInFront S o s) := by
  have hiff : HasReady S o s → (AttemptsReady S o s ↔ ReadyInFront S o s) := by
    rintro ⟨d, -, -, -, hchannel⟩
    refine attemptsReady_iff ?_
    intro hnone
    rw [hnone] at hchannel
    cases hchannel
  constructor
  · exact fun h hready => (hiff hready).mp (h hready)
  · exact fun h hready => (hiff hready).mpr (h hready)

end

/-! ## A queue that stands still -/

/-- A row that waits for its first attempt, of the notification 1. -/
def waitingRow (channel : DeliveryChannel) (id : Nat) : NotificationDelivery :=
  Outbox.newDelivery 1 channel "R" 0 id

/-- Fifty text messages from the time when their channel was configured, and an electronic one. -/
def leftOver : Outbox where
  notifications := Table.ofRows [⟨1, 1, "sla_reminder", "M", none⟩] (List.nodup_singleton _)
  deliveries := Table.ofRows ((List.range 50).map (waitingRow .sms) ++ [waitingRow .email 50]) (by decide)
  notified := by decide

theorem unconfigured_rows_block :
    ¬∀ S o s, HasReady S o s → AttemptsReady S o s := by
  intro hclaim
  have hmem : waitingRow .email 50 ∈ leftOver.deliveries.rows := by decide
  obtain ⟨w, hw, call, hcall, -⟩ := hclaim {} leftOver
    { now := 0, configured := [.email], send := fun _ _ => .delivered 0 }
    ⟨waitingRow .email 50, hmem, by decide, by decide, by decide⟩
  have hsilent : (runDeliverySweep {} leftOver
      { now := 0, configured := [.email], send := fun _ _ => .delivered 0 }).toOption.all
      (fun w => w.calls.isEmpty) = true := by
    decide
  rw [hw] at hsilent
  have hnil : w.calls = [] := List.isEmpty_iff.mp hsilent
  rw [hnil] at hcall
  cases hcall

end NexaHR
