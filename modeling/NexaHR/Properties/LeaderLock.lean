import NexaHR.Services.SchedulerLock
import NexaHR.System.Installation

/-! # One worker sweeps

The lock belongs to a connection that only one call has. So it is free as soon as the call is over, or its worker or
its connection is gone, and none of the other ways in which a call may end leaves it behind.

* `Cluster.Leads`: the call was granted the lock and has not lost it.
* `proceed_cases`: what a move of a call can do.
* `Locked`: who leads holds the lock.
* `one_leader`: one call at most leads, and a call that asks is refused only where another one leads.
-/

namespace NexaHR

open Foundations

set_option autoImplicit false

/-! ## Calls -/

namespace Cluster

/-- The call of the connection was granted the lock, and the connection is not lost. -/
def Leads (c : Cluster) (connection : Nat) : Prop :=
  ∃ call, c.calls connection = some call ∧ call.granted = true ∧ call.severed = false

variable {c : Cluster} {connection k : Nat} {call : SweepCall}

theorem setCall_self : (c.setCall connection call).calls connection = some call := Function.update_self ..

theorem setCall_of_ne (h : k ≠ connection) : (c.setCall connection call).calls k = c.calls k :=
  Function.update_of_ne h ..

theorem leads_self (h : (c.calls connection) = some call) :
    c.Leads connection ↔ call.granted = true ∧ call.severed = false := by
  unfold Leads
  rw [h]
  constructor
  · intro hleads
    obtain ⟨call', hcall, hgranted⟩ := hleads
    cases hcall
    exact hgranted
  · intro hgranted
    exact ⟨call, rfl, hgranted⟩

theorem leads_congr {c' : Cluster} (h : c'.calls k = c.calls k) : c'.Leads k ↔ c.Leads k := by
  unfold Leads
  rw [h]

end Cluster

/-- The call works under the lock, or has just got it. -/
def SweepProgress.works : SweepProgress → Bool
  | .leading | .running _ | .swept _ _ _ | .committed _ _ => true
  | .asking | .refused | .ending => false

/-- The notices that the call has created and not committed. -/
def SweepProgress.pending : SweepProgress → List Notification
  | .swept _ created _ => created
  | _ => []

theorem pending_of_idle {progress : SweepProgress} (h : progress.works = false) : progress.pending = [] := by
  cases progress with
  | swept row created summary => cases h
  | _ => rfl

section

variable {S : SweepSettings} {c c' : Cluster} {connection : Nat} {call : SweepCall} {progress : SweepProgress}
  {move : SweepMove}

/-- What a move does that leaves the lock: the call comes further, and its sweeps look at the database, or what they
created is committed. -/
structure Brought (S : SweepSettings) (c c' : Cluster) (progress further : SweepProgress) : Prop where
  lock : c'.lock = c.lock
  asks : further ≠ .asking
  works : further.works = true → progress.works = true
  notices :
    (c'.db = c.db ∧ further.pending = []) ∨
      (∃ env, env.notificationDedupDays = S.notificationDedupDays ∧ c'.db = c.db ∧
        further.pending = (runAllSweeps S c.db env).1) ∨
      (progress.works = true ∧ c'.db.notifications = c.db.notifications ++ progress.pending ∧ further.pending = [])

/-- A move asks for the lock, gives it back, or leaves it. -/
theorem proceed_cases (h : c.proceed S connection call progress move = some c') :
    (progress = .asking ∧ c' = c.ask connection call) ∨
      (progress = .ending ∧ c' = c.release connection call) ∨
      ∃ further, Brought S c c' progress further ∧
        c'.calls = Function.update c.calls connection (some { call with progress := further }) := by
  unfold Cluster.proceed at h
  split at h
  · cases h
    exact Or.inl ⟨rfl, rfl⟩
  · cases h
    exact Or.inr (Or.inr ⟨.ending, ⟨rfl, nofun, nofun, Or.inl ⟨rfl, rfl⟩⟩, rfl⟩)
  · cases h
    exact Or.inr (Or.inr ⟨.running _, ⟨rfl, nofun, id, Or.inl ⟨rfl, rfl⟩⟩, rfl⟩)
  · next env =>
    split at h
    · next hdays =>
      cases h
      exact Or.inr (Or.inr ⟨.swept _ _ _, ⟨rfl, nofun, id, Or.inr (Or.inl ⟨env, hdays, rfl, rfl⟩)⟩, rfl⟩)
    · cases h
  · cases h
    exact Or.inr (Or.inr ⟨.committed _ _, ⟨rfl, nofun, id, Or.inr (Or.inr ⟨rfl, rfl, rfl⟩)⟩, rfl⟩)
  · cases h
    exact Or.inr (Or.inr ⟨.ending, ⟨rfl, nofun, nofun, Or.inl ⟨rfl, rfl⟩⟩, rfl⟩)
  · cases h
    exact Or.inr (Or.inr ⟨.ending, ⟨rfl, nofun, nofun, Or.inl ⟨rfl, rfl⟩⟩, rfl⟩)
  · cases h
    exact Or.inr (Or.inr ⟨.ending, ⟨rfl, nofun, nofun, Or.inl ⟨rfl, rfl⟩⟩, rfl⟩)
  · cases h
    exact Or.inr (Or.inl ⟨rfl, rfl⟩)
  · cases h
    exact Or.inr (Or.inr ⟨.ending, ⟨rfl, nofun, nofun, Or.inl ⟨rfl, rfl⟩⟩, rfl⟩)
  · cases h

/-! ## The lock -/

/-- Who asks was not granted the lock yet, and who works was. -/
def SweepCall.Fits (call : SweepCall) : Prop :=
  (call.progress = .asking → call.granted = false) ∧ (call.progress.works = true → call.granted = true)

/-- Who leads holds the lock. -/
structure Locked (c : Cluster) : Prop where
  guards : Guards c.lock c.Leads
  fits : ∀ connection call, c.calls connection = some call → call.Fits

theorem allCalls_update {P : SweepCall → Prop} (h : ∀ k call, c.calls k = some call → P call) (hcall : P call) :
    ∀ k call', Function.update c.calls connection (some call) k = some call' → P call' := by
  intro k call' hcall'
  by_cases hk : k = connection
  · rw [hk, Function.update_self] at hcall'
    cases hcall'
    exact hcall
  · rw [Function.update_of_ne hk] at hcall'
    exact h k call' hcall'

/-- Nobody starts to lead, or stops. -/
theorem leads_update {call' : SweepCall} (hcalls : c'.calls = Function.update c.calls connection (some call'))
    (hself : (call'.granted = true ∧ call'.severed = false) ↔ c.Leads connection) (k : Nat) :
    c'.Leads k ↔ c.Leads k := by
  by_cases hk : k = connection
  · subst hk
    rw [← hself]
    apply Cluster.leads_self
    rw [hcalls, Function.update_self]
  · apply Cluster.leads_congr
    rw [hcalls, Function.update_of_ne hk]

theorem Locked.not_leads (h : Locked c) (hcall : c.calls connection = some call) (hprogress : call.progress = .asking) :
    ¬c.Leads connection := by
  rw [Cluster.leads_self hcall, (h.fits connection call hcall).1 hprogress]
  exact fun hleads => Bool.false_ne_true hleads.1

theorem Locked.ask (h : Locked c) (hcall : c.calls connection = some call) (hprogress : call.progress = .asking) :
    Locked (c.ask connection call) := by
  have hout := h.not_leads hcall hprogress
  unfold Cluster.ask
  split
  · refine ⟨h.guards.congr (leads_update rfl ?_), allCalls_update h.fits ⟨nofun, nofun⟩⟩
    rw [Cluster.leads_self hcall]
  · split
    · refine ⟨h.guards.congr (leads_update rfl ?_), allCalls_update h.fits ⟨nofun, nofun⟩⟩
      rw [Cluster.leads_self hcall]
    · next hsevered _ lock htry =>
      obtain ⟨hnobody, hguards⟩ := h.guards.entered hout htry
      refine ⟨hguards.congr ?_, allCalls_update h.fits ⟨nofun, fun _ => rfl⟩⟩
      intro k
      by_cases hk : k = connection
      · rw [hk]
        refine iff_of_true ?_ rfl
        exact ⟨_, Cluster.setCall_self, rfl, by simpa using hsevered⟩
      · refine iff_of_false ?_ hk
        rw [Cluster.leads_congr (Cluster.setCall_of_ne hk)]
        exact hnobody k

theorem release_calls {k : Nat} {call' : SweepCall} (h : (c.release connection call).calls k = some call') :
    c.calls k = some call' := by
  by_cases hk : k = connection
  · rw [hk] at h
    cases h.symm.trans (Function.update_self ..)
  · exact (Function.update_of_ne hk ..).symm.trans h

theorem Locked.release (h : Locked c) (hcall : c.calls connection = some call) :
    Locked (c.release connection call) := by
  have hothers : ∀ k, (c.release connection call).Leads k ↔ c.Leads k ∧ k ≠ connection := by
    intro k
    by_cases hk : k = connection
    · refine iff_of_false ?_ fun hleads => hleads.2 hk
      intro hleads
      obtain ⟨call', hcall', _⟩ := hleads
      rw [hk] at hcall'
      cases hcall'.symm.trans (Function.update_self ..)
    · rw [Cluster.leads_congr (Function.update_of_ne hk ..)]
      exact (and_iff_left hk).symm
  refine ⟨?_, ?_⟩
  · by_cases hleads : c.Leads connection
    · have hleft := h.guards.left hleads
      rw [Cluster.leads_self hcall] at hleads
      unfold Cluster.release
      rw [hleads.2]
      exact hleft.congr hothers
    · have hsame : (if call.severed then c.lock else c.lock.unlock connection) = c.lock := by
        split
        · rfl
        · exact h.guards.unlock_outside hleads
      unfold Cluster.release at hothers ⊢
      rw [hsame] at hothers ⊢
      refine h.guards.congr fun k => (hothers k).trans (and_iff_left_of_imp ?_)
      intro hk heq
      rw [heq] at hk
      exact hleads hk
  · intro k call' hcall'
    exact h.fits k call' (release_calls hcall')

theorem sever_calls {k : Nat} (h : (c.sever connection).calls k = some call) :
    ∃ before, c.calls k = some before ∧ call = { before with severed := before.severed || decide (k = connection) } := by
  by_cases hk : k = connection
  · have hself : (c.sever connection).calls k = (c.calls k).map fun call => { call with severed := true } := by
      rw [hk]
      exact Function.update_self ..
    rw [hself] at h
    obtain ⟨before, hbefore, rfl⟩ := Option.map_eq_some_iff.mp h
    exact ⟨before, hbefore, by simp [hk]⟩
  · have hother : (c.sever connection).calls k = c.calls k := Function.update_of_ne hk ..
    exact ⟨call, hother.symm.trans h, by simp [hk]⟩

theorem Locked.sever (h : Locked c) : Locked (c.sever connection) := by
  constructor
  · refine (h.guards.dropped _).congr ?_
    intro k
    constructor
    · intro hleads
      obtain ⟨call, hcall, hgranted, hsevered⟩ := hleads
      obtain ⟨before, hbefore, rfl⟩ := sever_calls hcall
      obtain ⟨hwhole, hother⟩ := Bool.or_eq_false_iff.mp hsevered
      exact ⟨⟨before, hbefore, hgranted, hwhole⟩, hother⟩
    · intro hleads
      rw [decide_eq_false_iff_not] at hleads
      rw [Cluster.leads_congr (Function.update_of_ne hleads.2 ..)]
      exact hleads.1
  · intro k call hcall
    obtain ⟨before, hbefore, rfl⟩ := sever_calls hcall
    exact h.fits k before hbefore

theorem crash_calls {process k : Nat} :
    (c.crash process).calls k = some call ↔ c.calls k = some call ∧ call.process ≠ process := by
  unfold Cluster.crash
  rw [Option.filter_eq_some_iff, decide_eq_true_eq]

theorem Locked.crash (h : Locked c) (process : Nat) : Locked (c.crash process) := by
  constructor
  · refine (h.guards.dropped _).congr ?_
    intro k
    unfold Cluster.Leads Cluster.belongsTo
    constructor
    · intro hleads
      obtain ⟨call, hcall, hgranted⟩ := hleads
      obtain ⟨hbefore, hother⟩ := crash_calls.mp hcall
      exact ⟨⟨call, hbefore, hgranted⟩, by simp [hbefore, hother]⟩
    · intro hleads
      obtain ⟨⟨call, hcall, hgranted⟩, hother⟩ := hleads
      rw [hcall, Option.any_some, decide_eq_false_iff_not] at hother
      exact ⟨call, crash_calls.mpr ⟨hcall, hother⟩, hgranted⟩
  · intro k call hcall
    exact h.fits k call (crash_calls.mp hcall).1

theorem Locked.proceed (h : Locked c) (hcall : c.calls connection = some call)
    (hmove : c.proceed S connection call call.progress move = some c') : Locked c' := by
  obtain ⟨hprogress, rfl⟩ | ⟨_, rfl⟩ | ⟨further, hbrought, hcalls⟩ := proceed_cases hmove
  · exact h.ask hcall hprogress
  · exact h.release hcall
  · constructor
    · rw [hbrought.lock]
      refine h.guards.congr (leads_update hcalls ?_)
      rw [Cluster.leads_self hcall]
    · rw [hcalls]
      refine allCalls_update h.fits ⟨fun heq => absurd heq hbrought.asks, fun hdoes => ?_⟩
      exact (h.fits connection call hcall).2 (hbrought.works hdoes)

theorem Locked.step {e : ClusterEvent} (h : Locked c) (hstep : ClusterSteps S c e c') : Locked c' := by
  unfold ClusterSteps at hstep
  cases e with
  | request req =>
    cases hstep
    exact ⟨h.guards, h.fits⟩
  | called connection process trigger =>
    simp only [Cluster.next] at hstep
    split at hstep
    · cases hstep
    · next hnone =>
      cases hstep
      refine ⟨h.guards.congr (leads_update rfl (iff_of_false nofun ?_)), allCalls_update h.fits ⟨fun _ => rfl, nofun⟩⟩
      intro hleads
      obtain ⟨call, hcall, _⟩ := hleads
      cases hnone.symm.trans hcall
  | moved connection move =>
    obtain ⟨call, hcall, hmove⟩ := Option.bind_eq_some_iff.mp hstep
    exact h.proceed hcall hmove
  | severed connection =>
    cases hstep
    exact h.sever
  | crashed process =>
    cases hstep
    exact h.crash process

theorem Started.locked (h : Started c) : Locked c := by
  constructor
  · rw [h.lock]
    refine Guards.of_free.congr fun k => iff_of_false ?_ id
    intro hleads
    obtain ⟨call, hcall, _⟩ := hleads
    cases (h.calls k).symm.trans hcall
  · intro k call hcall
    cases (h.calls k).symm.trans hcall

theorem locked_of_run {tr : List (Taken Cluster ClusterEvent)} (h : ClusterRun S tr c) : Locked c :=
  h.invariant (fun _ hstarted => hstarted.locked) fun _ _ _ hlocked hstep => hlocked.step hstep

/-- In every run one call at most leads, and whoever asks is granted the lock exactly if nobody leads. -/
theorem one_leader {tr : List (Taken Cluster ClusterEvent)} (h : ClusterRun S tr c) :
    (∀ k k', c.Leads k → c.Leads k' → k = k') ∧
      ∀ k call, c.calls k = some call → call.progress = .asking → call.severed = false →
        ∃ c', ClusterSteps S c (.moved k .ask) c' ∧ (c'.Leads k ↔ ∀ k', ¬c.Leads k') := by
  have hlocked := locked_of_run h
  refine ⟨fun k k' hk hk' => hlocked.guards.exclusive hk hk', ?_⟩
  intro k call hcall hprogress hsevered
  refine ⟨c.ask k call, ?_, ?_⟩
  · show (c.calls k).bind _ = _
    rw [hcall, Option.bind_some, hprogress]
    rfl
  · have hout : ¬c.Leads k := hlocked.not_leads hcall hprogress
    cases htry : c.lock.tryLock k with
    | none =>
      obtain ⟨other, hother⟩ := (hlocked.guards.refused_iff hout).mp htry
      refine iff_of_false ?_ fun hnobody => hnobody other hother
      unfold Cluster.ask
      rw [if_neg (by simp [hsevered]), htry]
      rw [Cluster.leads_self Cluster.setCall_self]
      intro hleads
      rw [(hlocked.fits k call hcall).1 hprogress] at hleads
      cases hleads.1
    | some lock =>
      refine iff_of_true ?_ (hlocked.guards.entered hout htry).1
      unfold Cluster.ask
      rw [if_neg (by simp [hsevered]), htry]
      rw [Cluster.leads_self Cluster.setCall_self]
      exact ⟨rfl, hsevered⟩

end

/-- The office before its first sweep. -/
def quietCluster : Cluster := ⟨office fullChain, [], 0, .free, fun _ => none⟩

theorem quietCluster_started : Started quietCluster where
  db := office_initial (by decide)
  notifications := rfl
  runs := rfl
  lock := rfl
  calls := fun _ => rfl

/-- The settings that the application comes with. -/
def defaultSettings : SweepSettings := ⟨30, 3, 7⟩

theorem second_worker_is_refused :
    ∃ tr c, ClusterRun defaultSettings tr c ∧ c.Leads 1 ∧
      ∃ c', ClusterSteps defaultSettings c (.moved 2 .ask) c' ∧ ¬c'.Leads 2 := by
  have hcalled : ClusterRun defaultSettings _ _ :=
    Run.cons (Run.cons (Run.nil quietCluster_started) (show ClusterSteps _ _ (.called 1 1 .scheduler) _ from rfl))
      (show ClusterSteps _ _ (.called 2 2 .manual) _ from rfl)
  have hrun := Run.cons hcalled (show ClusterSteps _ _ (.moved 1 .ask) _ from rfl)
  obtain ⟨c', hstep, hiff⟩ := (one_leader hrun).2 2 _ rfl rfl rfl
  refine ⟨_, _, hrun, ⟨_, rfl, rfl, rfl⟩, c', hstep, ?_⟩
  rw [hiff]
  exact fun hnobody => hnobody 1 ⟨_, rfl, rfl, rfl⟩

end NexaHR
