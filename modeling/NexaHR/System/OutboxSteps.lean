import NexaHR.Services.Delivery
import NexaHR.Foundations.Runs

/-! # The outbox over time

Notifications are created and deleted, and sweeps run; what the channels do in a sweep, which of them are
configured and how the database orders rows of one age is arbitrary in each.

* `OutboxRun`: the runs, from an empty outbox.
* `RowChange`: all that a step does to the row of one key.
* `rowChange_of_steps`: no step does anything else.
-/

namespace NexaHR

open Foundations

set_option autoImplicit false

/-! ## Steps -/

inductive OutboxEvent
  | notified (userId : Nat) (type message : String) (link : Option String) (user : Option Contact)
      (moduleEnabled : Bool) (configured : List DeliveryChannel) (now : Nat)
  | cleared (userId : Nat)
  | swept (s : DeliverySweep)

namespace Outbox

/-- `notify` for one recipient. -/
def notify (o : Outbox) (userId : Nat) (type message : String) (link : Option String) (user : Option Contact)
    (moduleEnabled : Bool) (configured : List DeliveryChannel) (now : Nat) : Outbox :=
  let notification : QueuedNotification := ⟨o.notifications.seq + 1, userId, type, message, link⟩
  let added := o.addNotification userId type message link
  if moduleEnabled then
    enqueueFor added notification (o.addNotification_get? userId type message link) user configured now
  else added

/-- The notifications of an account go away with it, and their rows with them. -/
def clear (o : Outbox) (userId : Nat) : Outbox := o.keepNotifications fun n => n.userId ≠ userId

end Outbox

def outboxStep (S : DeliverySettings) (o : Outbox) : OutboxEvent → Except OverflowError Outbox
  | .notified userId type message link user moduleEnabled configured now =>
    pure (o.notify userId type message link user moduleEnabled configured now)
  | .cleared userId => pure (o.clear userId)
  | .swept s => do
    let swept ← runDeliverySweep S o s
    pure swept.outbox

def OutboxSteps (S : DeliverySettings) (o : Outbox) (e : OutboxEvent) (o' : Outbox) : Prop :=
  outboxStep S o e = .ok o'

abbrev OutboxRun (S : DeliverySettings) (tr : List (Taken Outbox OutboxEvent)) (o : Outbox) : Prop :=
  Run (· = Outbox.empty) (OutboxSteps S) tr o

/-- The calls of `send` in a step. -/
def callsAt (S : DeliverySettings) (x : Taken Outbox OutboxEvent) : List SendCall :=
  match x.label with
  | .swept s =>
    match runDeliverySweep S x.before s with
    | .ok swept => swept.calls
    | .error _ => []
  | _ => []

/-- The attempts to deliver the row `k` in a step. -/
def attemptsAt (S : DeliverySettings) (k : Nat) (x : Taken Outbox OutboxEvent) : List SendCall :=
  (callsAt S x).filter fun call => call.deliveryId = k

/-- The attempts to deliver the row `k` in a run, the newest first. -/
def attemptsOf (S : DeliverySettings) (k : Nat) (tr : List (Taken Outbox OutboxEvent)) : List SendCall :=
  tr.flatMap (attemptsAt S k)

section

variable {S : DeliverySettings} {o o' : Outbox} {e : OutboxEvent} {s : DeliverySweep} {k : Nat}
  {d : NotificationDelivery} {rows due : List NotificationDelivery} {w : Sweeping}

/-! ## The rows of a sweep -/

/-- The due rows, when every row can be decided. -/
theorem dueRows_ok (h : dueRows S s.now rows = .ok due) :
    (∀ d ∈ rows, ∃ b, isDue S d s.now = .ok b) ∧
      due = rows.filter fun d => isDue S d s.now = .ok true := by
  induction rows generalizing due with
  | nil =>
    cases h
    exact ⟨fun d hd => absurd hd List.not_mem_nil, rfl⟩
  | cons row rows ih =>
    unfold dueRows at h
    simp only [bind_eq_ok, pure_eq_ok] at h
    obtain ⟨b, hb, rest, hrest, rfl⟩ := h
    obtain ⟨hdecided, hfilter⟩ := ih hrest
    constructor
    · intro d hd
      rcases List.mem_cons.mp hd with rfl | hd
      · exact ⟨b, hb⟩
      · exact hdecided d hd
    · cases b with
      | true => rw [List.filter_cons_of_pos (by rw [hb]; rfl), ← hfilter, if_pos rfl]
      | false =>
        rw [List.filter_cons_of_neg (by rw [hb]; decide), ← hfilter, if_neg Bool.false_ne_true]

theorem dueRows_of_decided (h : ∀ d ∈ rows, ∃ b, isDue S d s.now = .ok b) :
    ∃ due, dueRows S s.now rows = .ok due := by
  induction rows with
  | nil => exact ⟨[], rfl⟩
  | cons row rows ih =>
    obtain ⟨b, hb⟩ := h row List.mem_cons_self
    obtain ⟨rest, hrest⟩ := ih fun d hd => h d (List.mem_cons_of_mem _ hd)
    refine ⟨if b then row :: rest else rest, ?_⟩
    unfold dueRows
    simp only [bind_eq_ok, pure_eq_ok]
    exact ⟨b, hb, rest, hrest, rfl⟩

/-- The rows that a sweep works on. -/
def batchOf (S : DeliverySettings) (o : Outbox) (s : DeliverySweep) : List NotificationDelivery :=
  window (fun d => isDue S d s.now = .ok true) (batchSize S s * 4) (batchSize S s) (waitingRows o s)

theorem mem_waitingRows : d ∈ waitingRows o s ↔ d ∈ o.deliveries ∧ d.isWaiting = true := by
  unfold waitingRows
  rw [mem_sortedBy, mem_sortedBy, List.mem_filter]
  exact Iff.rfl

theorem waitingRows_nodup (o : Outbox) (s : DeliverySweep) :
    ((waitingRows o s).map NotificationDelivery.id).Nodup := by
  have hrows : ((o.deliveries.rows.filter NotificationDelivery.isWaiting).map
      NotificationDelivery.id).Nodup :=
    o.deliveries.nodup.sublist (List.filter_sublist.map _)
  have hperm : (waitingRows o s).Perm (o.deliveries.rows.filter NotificationDelivery.isWaiting) :=
    (List.perm_insertionSort _ _).trans (List.perm_insertionSort _ _)
  exact (hperm.map _).nodup_iff.mpr hrows

theorem mem_batchOf (h : d ∈ batchOf S o s) :
    d ∈ o.deliveries ∧ d.isWaiting = true ∧ isDue S d s.now = .ok true := by
  obtain ⟨i, hi, -, hdue, -⟩ := mem_window_iff.mp h
  obtain ⟨hmem, hwaiting⟩ := mem_waitingRows.mp (List.mem_of_getElem? hi)
  exact ⟨hmem, hwaiting, by simpa using hdue⟩

theorem batchOf_nodup (S : DeliverySettings) (o : Outbox) (s : DeliverySweep) :
    ((batchOf S o s).map NotificationDelivery.id).Nodup :=
  (waitingRows_nodup o s).sublist (window_sublist.map _)

theorem runDeliverySweep_ok (h : runDeliverySweep S o s = .ok w) :
    s.configured = [] ∧ w = { outbox := o } ∨
      (∀ d ∈ candidates S o s, ∃ b, isDue S d s.now = .ok b) ∧
        w = (batchOf S o s).foldl (deliver S s) { outbox := o } := by
  unfold runDeliverySweep at h
  split at h
  next hnone =>
    cases h
    exact Or.inl ⟨hnone, rfl⟩
  next =>
    simp only [bind_eq_ok, pure_eq_ok] at h
    obtain ⟨due, hdue, rfl⟩ := h
    obtain ⟨hdecided, rfl⟩ := dueRows_ok hdue
    exact Or.inr ⟨hdecided, rfl⟩

/-! ## One delivery -/

/-- The call that a sweep makes for a row. -/
def callFor (s : DeliverySweep) (o : Outbox) (d : NotificationDelivery) : Option SendCall :=
  if d.channel ∈ s.configured then
    (o.notifications.get? d.notificationId).map fun n =>
      ⟨d.id, messageFor d n, s.send d.id (messageFor d n)⟩
  else none

/-- What the delivery of `d` leaves of a row. -/
def leftBy (S : DeliverySettings) (s : DeliverySweep) (o : Outbox) (d row : NotificationDelivery) :
    NotificationDelivery :=
  match callFor s o d with
  | some call => Outbox.writeTo d.id (progressAfter S s.now d call.result) row
  | none => row

theorem callFor_id {call : SendCall} (h : callFor s o d = some call) : call.deliveryId = d.id := by
  unfold callFor at h
  split at h
  · obtain ⟨n, -, rfl⟩ := Option.map_eq_some_iff.mp h
    rfl
  · cases h

theorem leftBy_of_ne {row : NotificationDelivery} (h : row.id ≠ d.id) : leftBy S s o d row = row := by
  unfold leftBy
  split
  · unfold Outbox.writeTo
    rw [if_neg h]
  · rfl

theorem deliver_keeps (w : Sweeping) (d : NotificationDelivery) :
    (deliver S s w d).outbox.notifications = w.outbox.notifications ∧
      (deliver S s w d).outbox.deliveries.seq = w.outbox.deliveries.seq := by
  unfold deliver
  split
  · split <;> exact ⟨rfl, rfl⟩
  · exact ⟨rfl, rfl⟩

/-- The delivery of a row whose notification is there. -/
theorem deliver_spec (hn : (w.outbox.notifications.get? d.notificationId).isSome = true) :
    (deliver S s w d).calls = w.calls ++ (callFor s w.outbox d).toList ∧
      ∀ k, (deliver S s w d).outbox.deliveries.get? k =
        (w.outbox.deliveries.get? k).map (leftBy S s w.outbox d) := by
  obtain ⟨n, hget⟩ := Option.isSome_iff_exists.mp hn
  by_cases hconfigured : d.channel ∈ s.configured
  · have hcall : callFor s w.outbox d = some ⟨d.id, messageFor d n, s.send d.id (messageFor d n)⟩ := by
      unfold callFor
      rw [if_pos hconfigured, hget, Option.map_some]
    have hdeliver : deliver S s w d =
        { outbox := w.outbox.write d.id (progressAfter S s.now d (s.send d.id (messageFor d n)))
          outcome := w.outcome.count (progressAfter S s.now d (s.send d.id (messageFor d n))).status
          calls := w.calls ++ [⟨d.id, messageFor d n, s.send d.id (messageFor d n)⟩] } := by
      unfold deliver
      rw [if_pos hconfigured, hget]
    rw [hdeliver, hcall]
    refine ⟨rfl, ?_⟩
    intro k
    have hleft : leftBy S s w.outbox d =
        Outbox.writeTo d.id (progressAfter S s.now d (s.send d.id (messageFor d n))) := by
      funext row
      unfold leftBy
      rw [hcall]
    rw [hleft]
    exact Outbox.write_get? _ _ _ k
  · have hcall : callFor s w.outbox d = none := by
      unfold callFor
      rw [if_neg hconfigured]
    have hdeliver : deliver S s w d = w := by
      unfold deliver
      rw [if_neg hconfigured]
    have hleft : leftBy S s w.outbox d = id := by
      funext row
      unfold leftBy
      rw [hcall]
      rfl
    rw [hdeliver, hcall, hleft]
    refine ⟨(List.append_nil _).symm, ?_⟩
    intro k
    rw [Option.map_id, id]

/-! ## A whole sweep -/

theorem callFor_congr (h : o'.notifications = o.notifications) : callFor s o' d = callFor s o d := by
  unfold callFor
  rw [h]

theorem leftBy_congr (h : o'.notifications = o.notifications) : leftBy S s o' d = leftBy S s o d := by
  funext row
  unfold leftBy
  rw [callFor_congr h]

theorem foldl_deliver_keeps (rows : List NotificationDelivery) (w : Sweeping) :
    (rows.foldl (deliver S s) w).outbox.notifications = w.outbox.notifications ∧
      (rows.foldl (deliver S s) w).outbox.deliveries.seq = w.outbox.deliveries.seq := by
  induction rows generalizing w with
  | nil => exact ⟨rfl, rfl⟩
  | cons d rows ih =>
    obtain ⟨hnotifications, hseq⟩ := ih (deliver S s w d)
    obtain ⟨hnotifications', hseq'⟩ := deliver_keeps (S := S) (s := s) w d
    exact ⟨hnotifications.trans hnotifications', hseq.trans hseq'⟩

/-- The calls of a sweep, and the rows that it leaves: each row of the batch is written once. -/
theorem foldl_deliver_spec (hnodup : (rows.map NotificationDelivery.id).Nodup)
    (hn : ∀ d ∈ rows, (w.outbox.notifications.get? d.notificationId).isSome = true) :
    (rows.foldl (deliver S s) w).calls = w.calls ++ rows.filterMap (callFor s w.outbox) ∧
      (∀ k, (∀ d ∈ rows, d.id ≠ k) →
        (rows.foldl (deliver S s) w).outbox.deliveries.get? k = w.outbox.deliveries.get? k) ∧
      ∀ d ∈ rows, (rows.foldl (deliver S s) w).outbox.deliveries.get? d.id =
        (w.outbox.deliveries.get? d.id).map (leftBy S s w.outbox d) := by
  induction rows generalizing w with
  | nil =>
    refine ⟨(List.append_nil _).symm, fun k _ => rfl, ?_⟩
    intro d hd
    cases hd
  | cons d rows ih =>
    rw [List.map_cons, List.nodup_cons] at hnodup
    obtain ⟨hfresh, hnodup⟩ := hnodup
    obtain ⟨hcalls, hrow⟩ := deliver_spec (S := S) (s := s) (hn d List.mem_cons_self)
    have hsame := (deliver_keeps (S := S) (s := s) w d).1
    obtain ⟨hcalls', hother, hwritten⟩ := @ih (deliver S s w d) hnodup (by
      intro d' hd'
      rw [hsame]
      exact hn d' (List.mem_cons_of_mem _ hd'))
    have hfilter : rows.filterMap (callFor s (deliver S s w d).outbox) =
        rows.filterMap (callFor s w.outbox) :=
      List.filterMap_congr fun d' _ => callFor_congr hsame
    -- The row of `k` is not written by the delivery of a row of another key.
    have hunwritten : ∀ k, d.id ≠ k →
        (deliver S s w d).outbox.deliveries.get? k = w.outbox.deliveries.get? k := by
      intro k hk
      rw [hrow k]
      cases hget : w.outbox.deliveries.get? k with
      | none => rfl
      | some row =>
        have hid : row.id = k := Table.id_of_get? hget
        rw [Option.map_some, leftBy_of_ne (by rw [hid]; exact fun h => hk h.symm)]
    rw [List.foldl_cons]
    refine ⟨?_, ?_, ?_⟩
    · rw [hcalls', hcalls, hfilter, List.append_assoc, List.filterMap_cons]
      cases callFor s w.outbox d <;> rfl
    · intro k hk
      rw [hother k fun d' hd' => hk d' (List.mem_cons_of_mem _ hd')]
      exact hunwritten k (hk d List.mem_cons_self)
    · intro d' hd'
      rcases List.mem_cons.mp hd' with rfl | hd'
      · have hone : ∀ d'' ∈ rows, d''.id ≠ d'.id := by
          intro d'' hd'' heq
          rw [← heq] at hfresh
          exact hfresh (List.mem_map_of_mem hd'')
        rw [hother _ hone]
        exact hrow _
      · have hne : d.id ≠ d'.id := by
          intro heq
          rw [heq] at hfresh
          exact hfresh (List.mem_map_of_mem hd')
        rw [hwritten d' hd', hunwritten d'.id hne, leftBy_congr hsame]

/-- Where each item makes at most one call, under its own key, the calls of one key are one call. -/
theorem filterMap_filter_single {f : NotificationDelivery → Option SendCall} {call : SendCall}
    (hnodup : (rows.map NotificationDelivery.id).Nodup)
    (hf : ∀ d call, f d = some call → call.deliveryId = d.id) (hd : d ∈ rows) (hid : d.id = k)
    (hcall : f d = some call) :
    (rows.filterMap f).filter (fun call => call.deliveryId = k) = [call] := by
  induction rows with
  | nil => cases hd
  | cons row rows ih =>
    rw [List.map_cons, List.nodup_cons] at hnodup
    obtain ⟨hfresh, hnodup⟩ := hnodup
    rcases List.mem_cons.mp hd with rfl | hd
    · have hrest : (rows.filterMap f).filter (fun call => call.deliveryId = k) = [] := by
        rw [List.filter_eq_nil_iff]
        intro call' hcall'
        obtain ⟨d', hd', hfd'⟩ := List.mem_filterMap.mp hcall'
        rw [decide_eq_true_eq, hf d' call' hfd']
        intro heq
        rw [hid, ← heq] at hfresh
        exact hfresh (List.mem_map_of_mem hd')
      have hkey : call.deliveryId = k := (hf d call hcall).trans hid
      rw [List.filterMap_cons_some hcall, List.filter_cons_of_pos (by rw [decide_eq_true_eq]; exact hkey),
        hrest]
    · have hne : row.id ≠ k := by
        intro heq
        rw [heq, ← hid] at hfresh
        exact hfresh (List.mem_map_of_mem hd)
      cases hrow : f row with
      | none =>
        rw [List.filterMap_cons_none hrow]
        exact ih hnodup hd
      | some call' =>
        have hkey : ¬call'.deliveryId = k := by
          rw [hf row call' hrow]
          exact hne
        rw [List.filterMap_cons_some hrow, List.filter_cons_of_neg (by rw [decide_eq_true_eq]; exact hkey)]
        exact ih hnodup hd

/-- What a sweep does to the row of one key: nothing, or one attempt. -/
theorem sweep_row (h : runDeliverySweep S o s = .ok w) (k : Nat) :
    (w.calls.filter (fun call => call.deliveryId = k) = [] ∧
        w.outbox.deliveries.get? k = o.deliveries.get? k) ∨
      ∃ d call, o.deliveries.get? k = some d ∧ d ∈ batchOf S o s ∧ callFor s o d = some call ∧
        w.calls.filter (fun call => call.deliveryId = k) = [call] ∧
        w.outbox.deliveries.get? k = some (d.withProgress (progressAfter S s.now d call.result)) := by
  rcases runDeliverySweep_ok h with ⟨-, rfl⟩ | ⟨-, rfl⟩
  · exact Or.inl ⟨rfl, rfl⟩
  have hn : ∀ d ∈ batchOf S o s, (o.notifications.get? d.notificationId).isSome = true :=
    fun d hd => o.notified d (mem_batchOf hd).1
  have hnodup := batchOf_nodup S o s
  obtain ⟨hcalls, hother, hwritten⟩ :=
    @foldl_deliver_spec S s (batchOf S o s) { outbox := o } hnodup hn
  rw [hcalls, List.nil_append]
  by_cases hbatch : ∃ d ∈ batchOf S o s, d.id = k ∧ (callFor s o d).isSome = true
  · obtain ⟨d, hd, hid, hsome⟩ := hbatch
    obtain ⟨call, hcall⟩ := Option.isSome_iff_exists.mp hsome
    have hget : o.deliveries.get? k = some d := by
      rw [← hid]
      exact Table.get?_of_mem (mem_batchOf hd).1
    refine Or.inr ⟨d, call, hget, hd, hcall, ?_, ?_⟩
    · exact filterMap_filter_single hnodup (fun d' call' => callFor_id) hd hid hcall
    · have hrow := hwritten d hd
      rw [hid, hget, Option.map_some] at hrow
      have hleft : leftBy S s o d d = d.withProgress (progressAfter S s.now d call.result) := by
        simp [leftBy, hcall, Outbox.writeTo]
      rw [hrow, hleft]
  · left
    constructor
    · rw [List.filter_eq_nil_iff]
      intro call hcall
      obtain ⟨d, hd, hd'⟩ := List.mem_filterMap.mp hcall
      have hid : call.deliveryId = d.id := callFor_id hd'
      rw [decide_eq_true_eq, hid]
      intro heq
      exact hbatch ⟨d, hd, heq, by rw [hd']; rfl⟩
    · by_cases hk : ∃ d ∈ batchOf S o s, d.id = k
      · obtain ⟨d, hd, rfl⟩ := hk
        have hnone : callFor s o d = none := by
          cases hcall : callFor s o d with
          | none => rfl
          | some call => exact absurd ⟨d, hd, rfl, by rw [hcall]; rfl⟩ hbatch
        have hleft : leftBy S s o d = id := by
          funext row
          unfold leftBy
          rw [hnone]
          rfl
        rw [hwritten d hd, hleft, Option.map_id, id]
      · exact hother k fun d hd hid => hk ⟨d, hd, hid⟩

/-! ## One step -/

/-- All that a step does to the row of one key, with the attempts that it makes. -/
inductive RowChange (S : DeliverySettings) (o : Outbox) (k : Nat) (o' : Outbox) : List SendCall → Prop
  | kept (hsame : o'.deliveries.get? k = o.deliveries.get? k) : RowChange S o k o' []
  | gone (hgone : o'.deliveries.get? k = none) : RowChange S o k o' []
  | queued (d : NotificationDelivery) (hnew : o.deliveries.seq < k)
      (hget : o'.deliveries.get? k = some d) (hstatus : d.status = .pending) (hattempts : d.attempts = 0) :
      RowChange S o k o' []
  | attempted (d : NotificationDelivery) (hget : o.deliveries.get? k = some d)
      (hwaiting : d.isWaiting = true) (now : Nat) (call : SendCall)
      (hget' : o'.deliveries.get? k = some (d.withProgress (progressAfter S now d call.result))) :
      RowChange S o k o' [call]

theorem insertDeliveries_seq_le (notificationId now : Nat) (rows : List (DeliveryChannel × String))
    (t : Table NotificationDelivery) :
    t.seq ≤ (rows.foldl (Outbox.insertDelivery notificationId now) t).seq := by
  induction rows generalizing t with
  | nil => exact Nat.le_refl _
  | cons row rows ih =>
    exact Nat.le_trans (Nat.le_succ t.seq) (ih (Outbox.insertDelivery notificationId now t row))

theorem insertDeliveries_get? {notificationId now : Nat} {rows : List (DeliveryChannel × String)}
    {t : Table NotificationDelivery} (h : t.get? k = some d) :
    (rows.foldl (Outbox.insertDelivery notificationId now) t).get? k = some d := by
  induction rows generalizing t with
  | nil => exact h
  | cons row rows ih => exact ih (Table.get?_insert_of_get? _ h)

/-- A new notification leaves the rows that are there, and adds rows that wait. -/
theorem notify_rowChange (userId : Nat) (type message : String) (link : Option String)
    (user : Option Contact) (moduleEnabled : Bool) (configured : List DeliveryChannel) (now k : Nat) :
    RowChange S o k (o.notify userId type message link user moduleEnabled configured now) [] := by
  cases moduleEnabled with
  | false => exact RowChange.kept rfl
  | true =>
    cases hget : o.deliveries.get? k with
    | some d =>
      refine RowChange.kept ?_
      rw [hget]
      exact insertDeliveries_get? hget
    | none =>
      cases hget' : (o.notify userId type message link user true configured now).deliveries.get? k with
      | none => exact RowChange.gone hget'
      | some d =>
        have hid : d.id = k := Table.id_of_get? hget'
        rcases Outbox.mem_insertDeliveries (Table.mem_of_get? hget') with hold | ⟨hlt, row, hnew⟩
        · have hmem : o.deliveries.get? d.id = some d := Table.get?_of_mem hold
          rw [hid, hget] at hmem
          cases hmem
        · rw [hid] at hlt
          exact RowChange.queued d hlt hget' (by rw [hnew]; rfl) (by rw [hnew]; rfl)

theorem clear_rowChange (userId k : Nat) : RowChange S o k (o.clear userId) [] := by
  have hfilter := Table.get?_filter o.deliveries
    (fun d => (o.notifications.get? d.notificationId).any fun n => n.userId ≠ userId) k
  cases hget' : (o.clear userId).deliveries.get? k with
  | none => exact RowChange.gone hget'
  | some d =>
    refine RowChange.kept ?_
    have hfiltered := hfilter.symm.trans hget'
    rw [hget', (Option.filter_eq_some_iff.mp hfiltered).1]

/-- No step does anything else to a row, and keys are not given twice. -/
theorem rowChange_of_steps (h : OutboxSteps S o e o') (k : Nat) :
    RowChange S o k o' (attemptsAt S k ⟨o, e, o'⟩) ∧ o.deliveries.seq ≤ o'.deliveries.seq := by
  unfold OutboxSteps outboxStep at h
  cases e with
  | notified userId type message link user moduleEnabled configured now =>
    cases h
    refine ⟨notify_rowChange userId type message link user moduleEnabled configured now k, ?_⟩
    cases moduleEnabled with
    | false => exact Nat.le_refl _
    | true => exact insertDeliveries_seq_le _ _ _ _
  | cleared userId =>
    cases h
    exact ⟨clear_rowChange userId k, Nat.le_refl _⟩
  | swept s =>
    simp only [bind_eq_ok, pure_eq_ok] at h
    obtain ⟨w, hw, rfl⟩ := h
    have hattempts : attemptsAt S k ⟨o, .swept s, w.outbox⟩ =
        w.calls.filter fun call => call.deliveryId = k := by
      unfold attemptsAt callsAt
      simp only [hw]
    rw [hattempts]
    constructor
    · rcases sweep_row hw k with ⟨hnone, hsame⟩ | ⟨d, call, hget, hbatch, -, hone, hget'⟩
      · rw [hnone]
        exact RowChange.kept hsame
      · rw [hone]
        exact RowChange.attempted d hget (mem_batchOf hbatch).2.1 s.now call hget'
    · rcases runDeliverySweep_ok hw with ⟨-, rfl⟩ | ⟨-, rfl⟩
      · exact Nat.le_refl _
      · rw [(foldl_deliver_keeps _ _).2]

end

end NexaHR
