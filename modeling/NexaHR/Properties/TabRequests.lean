import NexaHR.Pages.ApiClient
import Mathlib.Data.List.Count

/-! # The requests of the tabs

A request that is refused for want of a token waits for another one and is sent again, once. No request is lost on
that way, and a tab asks for one token at a time.

* `Accounted`: where the requests of a tab are, and which of them were sent again.
* `AsksOnce`: a tab that asks for a token had not asked for one.
* `Paired`: the tabs that wait and the flights that are under way.
* `requests_are_accounted_for`: the three in every run.
-/

namespace NexaHR.Browser

open Foundations

set_option autoImplicit false

/-! ## The requests of a tab -/

/-- Every request of the page is under way, waits or has ended, and those in `again` were sent a second time. -/
structure Accounted (tab : Tab) (again : List Nat) : Prop where
  places : (tab.inFlight.map ApiCall.key ++ tab.waiting.map ApiCall.key ++ tab.settled.map Prod.fst).Perm
    (List.range tab.issued)
  sent : tab.sent.Perm (List.range tab.issued ++ again)
  once : again.Nodup
  known : ∀ key ∈ again, key < tab.issued
  first : ∀ call ∈ tab.inFlight, call.retried = false → call.key ∉ again
  waits : ∀ call ∈ tab.waiting, call.retried = true ∧ call.key ∉ again
  promised : tab.waiting ≠ [] → tab.refreshing = true

theorem Accounted.count_places {tab : Tab} {again : List Nat} (h : Accounted tab again) (key : Nat) :
    (tab.inFlight.map ApiCall.key).count key + (tab.waiting.map ApiCall.key).count key +
      (tab.settled.map Prod.fst).count key = (List.range tab.issued).count key := by
  have hcount := List.perm_iff_count.mp h.places key
  rw [List.count_append, List.count_append] at hcount
  exact hcount

theorem Accounted.mem_lt {tab : Tab} {again : List Nat} (h : Accounted tab again) {call : ApiCall}
    (hcall : call ∈ tab.inFlight ++ tab.waiting) : call.key < tab.issued := by
  apply List.mem_range.mp
  rw [← h.places.mem_iff, ← List.map_append]
  exact List.mem_append_left _ (List.mem_map_of_mem hcall)

/-- A request that is under way does not wait. -/
theorem Accounted.apart {tab : Tab} {again : List Nat} (h : Accounted tab again) {call : ApiCall}
    (hcall : call ∈ tab.inFlight) : call.key ∉ tab.waiting.map ApiCall.key := by
  intro hwaits
  have hcount := h.count_places call.key
  have hle := List.nodup_iff_count_le_one.mp (@List.nodup_range tab.issued) call.key
  have hpos := List.count_pos_iff.mpr (List.mem_map_of_mem (f := ApiCall.key) hcall)
  have hpos' := List.count_pos_iff.mpr hwaits
  omega

theorem count_erase_key {calls : List ApiCall} {call : ApiCall} (h : call ∈ calls) (key : Nat) :
    (calls.map ApiCall.key).count key =
      ((calls.erase call).map ApiCall.key).count key + [call.key].count key := by
  have hperm := ((List.perm_cons_erase h).map ApiCall.key).count_eq key
  rw [hperm, List.map_cons, ← List.singleton_append, List.count_append]
  omega

theorem request_accounted {tab : Tab} {again : List Nat} (h : Accounted tab again) (url : String) :
    Accounted (tab.request url) again where
  places := by
    rw [List.perm_iff_count]
    intro key
    have hcount := h.count_places key
    show (tab.issued :: tab.inFlight.map ApiCall.key ++ tab.waiting.map ApiCall.key ++
      tab.settled.map Prod.fst).count key = (List.range (tab.issued + 1)).count key
    rw [List.range_succ, List.cons_append, List.cons_append, ← List.singleton_append, List.count_append,
      List.count_append, List.count_append, List.count_append]
    omega
  sent := by
    rw [List.perm_iff_count]
    intro key
    have hcount := List.perm_iff_count.mp h.sent key
    show (tab.issued :: tab.sent).count key = (List.range (tab.issued + 1) ++ again).count key
    rw [List.count_append] at hcount
    rw [List.range_succ, List.append_assoc, ← List.singleton_append, List.count_append, List.count_append,
      List.count_append, hcount]
    omega
  once := h.once
  known := fun key hkey => Nat.lt_succ_of_lt (h.known key hkey)
  first := by
    intro call hcall hfirst
    cases List.mem_cons.mp hcall with
    | inl hnew =>
      intro hkey
      have hlt := h.known _ hkey
      rw [hnew] at hlt
      exact Nat.lt_irrefl _ hlt
    | inr hold => exact h.first call hold hfirst
  waits := h.waits
  promised := h.promised

theorem settle_accounted {tab : Tab} {again : List Nat} {call : ApiCall} (h : Accounted tab again)
    (hcall : call ∈ tab.inFlight) (ok : Bool) (forbidden : Nat) :
    Accounted (({ tab with inFlight := tab.inFlight.erase call, forbidden := forbidden } : Tab).settle call ok)
      again where
  places := by
    rw [List.perm_iff_count]
    intro key
    have hcount := h.count_places key
    rw [count_erase_key hcall] at hcount
    show ((tab.inFlight.erase call).map ApiCall.key ++ tab.waiting.map ApiCall.key ++
      (call.key :: tab.settled.map Prod.fst)).count key = (List.range tab.issued).count key
    rw [← List.singleton_append, List.count_append, List.count_append, List.count_append]
    omega
  sent := h.sent
  once := h.once
  known := h.known
  first := fun other hother => h.first other (List.mem_of_mem_erase hother)
  waits := h.waits
  promised := h.promised

/-- A request that goes out for the first time waits for another token. -/
theorem wait_accounted {tab : Tab} {again : List Nat} {call : ApiCall} (h : Accounted tab again)
    (hcall : call ∈ tab.inFlight) (hfirst : call.retried = false) (forbidden : Nat) :
    Accounted
      ({ tab with
        inFlight := tab.inFlight.erase call
        forbidden := forbidden
        waiting := tab.waiting ++ [{ call with retried := true }]
        refreshing := true } : Tab) again where
  places := by
    rw [List.perm_iff_count]
    intro key
    have hcount := h.count_places key
    rw [count_erase_key hcall] at hcount
    dsimp only
    rw [List.map_append, List.map_singleton, List.count_append, List.count_append, List.count_append]
    dsimp only
    omega
  sent := h.sent
  once := h.once
  known := h.known
  first := fun other hother => h.first other (List.mem_of_mem_erase hother)
  waits := by
    intro other hother
    cases List.mem_append.mp hother with
    | inl hold => exact h.waits other hold
    | inr hnew =>
      rw [List.mem_singleton.mp hnew]
      exact ⟨rfl, h.first call hcall hfirst⟩
  promised := fun _ => rfl

theorem answered_accounted {tab : Tab} {again : List Nat} {call : ApiCall} (h : Accounted tab again)
    (hcall : call ∈ tab.inFlight) (status : Option Nat) : Accounted (tab.answered call status).1 again := by
  have hseen : (if status = some 403 then
        { tab with inFlight := tab.inFlight.erase call, forbidden := tab.forbidden + 1 }
      else { tab with inFlight := tab.inFlight.erase call }) =
      { tab with
        inFlight := tab.inFlight.erase call
        forbidden := if status = some 403 then tab.forbidden + 1 else tab.forbidden } := by
    split
    · rfl
    · rfl
  unfold Tab.answered
  dsimp only
  rw [hseen]
  split
  · exact settle_accounted h hcall true tab.forbidden
  · split
    · next hrefused => exact wait_accounted h hcall hrefused.2.1 _
    · exact settle_accounted h hcall false _

/-! ### After a refresh -/

theorem foldl_send (calls : List ApiCall) (newToken : Token) {tab : Tab} (htoken : tab.accessToken = some newToken) :
    calls.foldl (fun tab call => tab.send { call with bearer := some newToken }) tab =
      { tab with
        inFlight := (calls.map fun call => { call with bearer := some newToken }).reverse ++ tab.inFlight
        sent := (calls.map ApiCall.key).reverse ++ tab.sent } := by
  induction calls generalizing tab with
  | nil => rfl
  | cons call calls ih =>
    have hsend : tab.send { call with bearer := some newToken } =
        { tab with
          inFlight := { call with bearer := some newToken } :: tab.inFlight
          sent := call.key :: tab.sent } := by
      unfold Tab.send
      rw [htoken]
      rfl
    have hrest := @ih { tab with
      inFlight := { call with bearer := some newToken } :: tab.inFlight
      sent := call.key :: tab.sent } htoken
    rw [List.foldl_cons, hsend, hrest]
    simp only [List.map_cons, List.reverse_cons, List.append_assoc, List.singleton_append]

theorem foldl_settle (calls : List ApiCall) (tab : Tab) :
    calls.foldl (fun tab call => tab.settle call false) tab =
      { tab with settled := (calls.map fun call => (call.key, false)).reverse ++ tab.settled } := by
  induction calls generalizing tab with
  | nil => rfl
  | cons call calls ih =>
    rw [List.foldl_cons, ih]
    simp only [Tab.settle, List.map_cons, List.reverse_cons, List.append_assoc, List.singleton_append]

/-- Those who waited are sent again, which they were not before. -/
theorem refreshed_accounted {tab : Tab} {again : List Nat} (h : Accounted tab again) (token : Option Token) :
    ∃ again', Accounted (tab.refreshed token) again' := by
  cases token with
  | none =>
    refine ⟨again, ?_⟩
    unfold Tab.refreshed
    dsimp only
    rw [foldl_settle]
    constructor
    · rw [List.perm_iff_count]
      intro key
      have hcount := h.count_places key
      have hkeys : ((tab.waiting.map fun call => (call.key, false)).reverse ++ tab.settled).map Prod.fst =
          (tab.waiting.map ApiCall.key).reverse ++ tab.settled.map Prod.fst := by
        rw [List.map_append, List.map_reverse, List.map_map]
        rfl
      dsimp only
      rw [hkeys, List.map_nil, List.append_nil, List.count_append, List.count_append, List.count_reverse]
      omega
    · exact h.sent
    · exact h.once
    · exact h.known
    · exact h.first
    · intro call hcall
      cases hcall
    · intro hsome
      exact absurd rfl hsome
  | some newToken =>
    have hwaiting : (tab.waiting.map ApiCall.key).Nodup := by
      have hnodup := h.places.symm.nodup List.nodup_range
      rw [List.append_assoc] at hnodup
      exact hnodup.of_append_right.of_append_left
    refine ⟨again ++ tab.waiting.map ApiCall.key, ?_⟩
    unfold Tab.refreshed
    dsimp only
    rw [foldl_send tab.waiting newToken rfl]
    constructor
    · rw [List.perm_iff_count]
      intro key
      have hcount := h.count_places key
      have hkeys : ((tab.waiting.map fun call => ({ call with bearer := some newToken } : ApiCall)).reverse ++
          tab.inFlight).map ApiCall.key = (tab.waiting.map ApiCall.key).reverse ++ tab.inFlight.map ApiCall.key := by
        rw [List.map_append, List.map_reverse, List.map_map]
        rfl
      dsimp only
      rw [hkeys, List.map_nil, List.append_nil, List.count_append, List.count_append, List.count_reverse]
      omega
    · rw [List.perm_iff_count]
      intro key
      have hcount := List.perm_iff_count.mp h.sent key
      dsimp only
      rw [List.count_append] at hcount
      rw [← List.append_assoc, List.count_append, List.count_append, List.count_append, List.count_reverse, hcount]
      omega
    · refine List.Nodup.append h.once hwaiting ?_
      intro key hagain hkey
      obtain ⟨call, hcall, rfl⟩ := List.mem_map.mp hkey
      exact (h.waits call hcall).2 hagain
    · intro key hkey
      cases List.mem_append.mp hkey with
      | inl hold => exact h.known key hold
      | inr hnew =>
        obtain ⟨call, hcall, rfl⟩ := List.mem_map.mp hnew
        exact h.mem_lt (List.mem_append_right _ hcall)
    · intro call hcall hfirst hkey
      cases List.mem_append.mp hcall with
      | inl hresent =>
        obtain ⟨waited, hwaited, rfl⟩ := List.mem_map.mp (List.mem_reverse.mp hresent)
        have hretried := (h.waits waited hwaited).1
        dsimp only at hfirst
        rw [hretried] at hfirst
        cases hfirst
      | inr hold =>
        cases List.mem_append.mp hkey with
        | inl hagain => exact h.first call hold hfirst hagain
        | inr hwaits => exact h.apart hold hwaits
    · intro call hcall
      cases hcall
    · intro hsome
      exact absurd rfl hsome

theorem next_accounted {tab : Tab} {again : List Nat} (h : Accounted tab again) {event : TabEvent}
    (hpossible : ∀ call status, event = .answered call status → call ∈ tab.inFlight) :
    Accounted (tab.next event).1 again := by
  cases event with
  | request url => exact request_accounted h url
  | answered call status => exact answered_accounted h (hpossible call status rfl) status
  | restore =>
    unfold Tab.next
    dsimp only
    split
    · exact ⟨h.places, h.sent, h.once, h.known, h.first, h.waits, fun _ => rfl⟩
    · exact h
  | setToken token => exact ⟨h.places, h.sent, h.once, h.known, h.first, h.waits, h.promised⟩

/-! ## One refresh at a time -/

/-- A tab that sends a refresh had none on its way. -/
structure AsksOnce (tab : Tab) (moved : Tab × Bool) : Prop where
  asks : moved.2 = true → tab.refreshing = false ∧ moved.1.refreshing = true
  quiet : moved.2 = false → moved.1.refreshing = tab.refreshing

theorem asksOnce_quiet {tab moved : Tab} (h : moved.refreshing = tab.refreshing) : AsksOnce tab (moved, false) where
  asks := by
    intro hasks
    cases hasks
  quiet := fun _ => h

theorem asksOnce_refresh {tab moved : Tab} (h : moved.refreshing = tab.refreshing) :
    AsksOnce tab moved.refreshAccessToken := by
  unfold Tab.refreshAccessToken
  rw [h]
  cases hrefreshing : tab.refreshing with
  | true => exact asksOnce_quiet hrefreshing.symm
  | false =>
    constructor
    · exact fun _ => ⟨hrefreshing, rfl⟩
    · intro hquiet
      cases hquiet

theorem next_asksOnce (tab : Tab) (event : TabEvent) : AsksOnce tab (tab.next event) := by
  cases event with
  | request url => exact asksOnce_quiet rfl
  | answered call status =>
    unfold Tab.next Tab.answered
    dsimp only
    split
    · exact asksOnce_quiet rfl
    · split
      · split
        · exact asksOnce_refresh rfl
        · exact asksOnce_refresh rfl
      · split
        · exact asksOnce_quiet rfl
        · exact asksOnce_quiet rfl
  | restore =>
    unfold Tab.next
    dsimp only
    split
    · exact asksOnce_refresh rfl
    · exact asksOnce_quiet rfl
  | setToken token => exact asksOnce_quiet rfl

theorem refreshed_refreshing (tab : Tab) (token : Option Token) : (tab.refreshed token).refreshing = false := by
  cases token with
  | none =>
    unfold Tab.refreshed
    dsimp only
    rw [foldl_settle]
  | some newToken =>
    unfold Tab.refreshed
    dsimp only
    rw [foldl_send tab.waiting newToken rfl]

/-- What the tabs and the flights say of each other. -/
structure Paired (delay : Nat) (w : World) : Prop where
  single : (w.flights.map Flight.tab).Nodup
  promised : ∀ tab, (w.tabs tab).refreshing = true ↔ tab ∈ w.flights.map Flight.tab
  accounted : ∀ tab, ∃ again, Accounted (w.tabs tab) again
  times : ∀ flight ∈ w.flights, flight.sentAt ≤ w.now ∧ w.now ≤ flight.sentAt + delay

theorem page_asks {w : World} {tab : Nat} {event : TabEvent} (h : ((w.tabs tab).next event).2 = true) :
    w.page tab event = { w with
      tabs := Function.update w.tabs tab ((w.tabs tab).next event).1
      flights := ⟨tab, w.now, w.jar, none⟩ :: w.flights } := by
  unfold World.page
  dsimp only
  rw [if_pos h]

theorem page_quiet {w : World} {tab : Nat} {event : TabEvent} (h : ((w.tabs tab).next event).2 = false) :
    w.page tab event = { w with tabs := Function.update w.tabs tab ((w.tabs tab).next event).1 } := by
  unfold World.page
  dsimp only
  rw [if_neg (Bool.eq_false_iff.mp h)]

theorem Paired.page {delay : Nat} {w : World} (h : Paired delay w) {tab : Nat} {event : TabEvent}
    (hpossible : ∀ call status, event = .answered call status → call ∈ (w.tabs tab).inFlight) :
    Paired delay (w.page tab event) := by
  obtain ⟨hasks, hquiet⟩ := next_asksOnce (w.tabs tab) event
  have haccounted : ∀ other, ∃ again,
      Accounted (Function.update w.tabs tab ((w.tabs tab).next event).1 other) again := by
    intro other
    by_cases heq : other = tab
    · subst heq
      obtain ⟨again, hagain⟩ := h.accounted other
      rw [Function.update_self]
      exact ⟨again, next_accounted hagain hpossible⟩
    · rw [Function.update_of_ne heq]
      exact h.accounted other
  cases hsends : ((w.tabs tab).next event).2 with
  | true =>
    rw [page_asks hsends]
    obtain ⟨hidle, hpromise⟩ := hasks hsends
    have hnone : tab ∉ w.flights.map Flight.tab := by
      rw [← h.promised tab, hidle]
      exact Bool.false_ne_true
    constructor
    · exact List.nodup_cons.mpr ⟨hnone, h.single⟩
    · intro other
      dsimp only
      rw [List.map_cons, List.mem_cons]
      by_cases heq : other = tab
      · subst heq
        rw [Function.update_self]
        exact iff_of_true hpromise (Or.inl rfl)
      · rw [Function.update_of_ne heq, h.promised other]
        constructor
        · exact Or.inr
        · intro hmem
          exact hmem.resolve_left heq
    · exact haccounted
    · intro flight hflight
      cases List.mem_cons.mp hflight with
      | inl hnew =>
        rw [hnew]
        exact ⟨Nat.le_refl _, Nat.le_add_right _ _⟩
      | inr hold => exact h.times flight hold
  | false =>
    rw [page_quiet hsends]
    have hsame := hquiet hsends
    constructor
    · exact h.single
    · intro other
      dsimp only
      by_cases heq : other = tab
      · subst heq
        rw [Function.update_self, hsame]
        exact h.promised other
      · rw [Function.update_of_ne heq]
        exact h.promised other
    · exact haccounted
    · exact h.times

/-- An answer changes which way a flight goes, and nothing that the tabs know of. -/
theorem Paired.answer {delay : Nat} {w : World} (h : Paired delay w) {flight : Flight} (hflight : flight ∈ w.flights)
    (answer : RefreshAnswer) : Paired delay (w.answer flight answer) := by
  have htabs : ((w.answer flight answer).flights.map Flight.tab).Perm (w.flights.map Flight.tab) :=
    ((List.perm_cons_erase hflight).map Flight.tab).symm
  constructor
  · exact htabs.symm.nodup h.single
  · intro tab
    rw [htabs.mem_iff]
    exact h.promised tab
  · exact h.accounted
  · intro other hother
    cases List.mem_cons.mp hother with
    | inl hnew =>
      rw [hnew]
      exact h.times flight hflight
    | inr hold => exact h.times other (List.mem_of_mem_erase hold)

/-- No other flight belongs to the tab of a flight. -/
theorem Paired.erased {delay : Nat} {w : World} (h : Paired delay w) {flight : Flight} (hflight : flight ∈ w.flights)
    (tab : Nat) :
    tab ∈ (w.flights.erase flight).map Flight.tab ↔ tab ∈ w.flights.map Flight.tab ∧ tab ≠ flight.tab := by
  have hperm := (List.perm_cons_erase hflight).map Flight.tab
  have hnodup := hperm.nodup h.single
  rw [List.map_cons, List.nodup_cons] at hnodup
  rw [hperm.mem_iff, List.map_cons, List.mem_cons]
  constructor
  · intro hmem
    refine ⟨Or.inr hmem, ?_⟩
    intro heq
    rw [heq] at hmem
    exact hnodup.1 hmem
  · intro hmem
    exact hmem.1.resolve_left hmem.2

theorem Paired.arrived {delay : Nat} {w : World} (h : Paired delay w) {flight : Flight} (hflight : flight ∈ w.flights) :
    Paired delay (w.arrived flight) := by
  unfold World.arrived
  cases hanswer : flight.answer with
  | none => exact h
  | some answer =>
    dsimp only
    constructor
    · exact h.single.sublist (List.erase_sublist.map Flight.tab)
    · intro tab
      dsimp only
      rw [h.erased hflight]
      by_cases heq : tab = flight.tab
      · subst heq
        rw [Function.update_self, refreshed_refreshing]
        exact iff_of_false Bool.false_ne_true fun hmem => hmem.2 rfl
      · rw [Function.update_of_ne heq, h.promised tab]
        exact ⟨fun hmem => ⟨hmem, heq⟩, fun hmem => hmem.1⟩
    · intro tab
      dsimp only
      by_cases heq : tab = flight.tab
      · subst heq
        obtain ⟨again, hagain⟩ := h.accounted flight.tab
        rw [Function.update_self]
        exact refreshed_accounted hagain answer.accessToken
      · rw [Function.update_of_ne heq]
        exact h.accounted tab
    · exact fun other hother => h.times other (List.mem_of_mem_erase hother)

theorem Paired.later {delay : Nat} {w : World} (h : Paired delay w) {time : Nat} (hle : w.now ≤ time)
    (hinTime : ∀ flight ∈ w.flights, time ≤ flight.sentAt + delay) : Paired delay { w with now := time } where
  single := h.single
  promised := h.promised
  accounted := h.accounted
  times := fun flight hflight => ⟨Nat.le_trans (h.times flight hflight).1 hle, hinTime flight hflight⟩

theorem Paired.step {S : Deployment} {delay userId : Nat} {w w' : World} {moment : Moment} (h : Paired delay w)
    (hsteps : BrowserSteps S delay userId w moment w') : Paired delay w' := by
  have hlater := h.later hsteps.later hsteps.inTime
  have hpossible := hsteps.possible
  rw [hsteps.next_eq]
  unfold World.next
  unfold Possible at hpossible
  cases hevent : moment.event with
  | page tab event =>
    rw [hevent] at hpossible
    apply hlater.page
    intro call status hanswered
    subst hanswered
    exact hpossible
  | served flight visit =>
    rw [hevent] at hpossible
    have hkept : Paired delay { w with
        now := moment.time
        platform := (serve S w.platform (refreshRequest flight visit)).2 } :=
      ⟨hlater.single, hlater.promised, hlater.accounted, hlater.times⟩
    exact hkept.answer hpossible.1 _
  | refused flight =>
    rw [hevent] at hpossible
    exact hlater.answer hpossible.1 _
  | arrived flight =>
    rw [hevent] at hpossible
    exact hlater.arrived hpossible.1
  | elsewhere req => exact ⟨hlater.single, hlater.promised, hlater.accounted, hlater.times⟩

/-! ## Runs -/

/-- Nothing is under way, and no page has asked for anything. -/
structure Idle (w : World) : Prop where
  tabs : ∀ tab, ∃ token, w.tabs tab = { accessToken := token }
  flights : w.flights = []

theorem Idle.paired {delay : Nat} {w : World} (h : Idle w) : Paired delay w where
  single := by
    rw [h.flights]
    exact List.nodup_nil
  promised := by
    intro tab
    obtain ⟨token, htab⟩ := h.tabs tab
    rw [h.flights, htab]
    exact iff_of_false Bool.false_ne_true List.not_mem_nil
  accounted := by
    intro tab
    obtain ⟨token, htab⟩ := h.tabs tab
    rw [htab]
    refine ⟨[], ?_⟩
    constructor
    · exact List.Perm.refl []
    · exact List.Perm.refl []
    · exact List.nodup_nil
    · exact fun _ hmem => absurd hmem List.not_mem_nil
    · exact fun _ hmem => absurd hmem List.not_mem_nil
    · exact fun _ hmem => absurd hmem List.not_mem_nil
    · exact fun hsome => absurd rfl hsome
  times := by
    rw [h.flights]
    exact fun _ hmem => absurd hmem List.not_mem_nil

/-! ### What a page may count on -/

/-- In every tab, every request of the page is under way, waits or has ended, and each is so once; none goes out more
than twice. While one waits, a single refresh of its tab is under way, and not for longer than it may take. -/
theorem requests_are_accounted_for {S : Deployment} {delay userId : Nat} {tr : List (Taken World Moment)} {w : World}
    (h : BrowserRun S delay userId Idle tr w) (tab : Nat) :
    ((w.tabs tab).inFlight.map ApiCall.key ++ (w.tabs tab).waiting.map ApiCall.key ++
        (w.tabs tab).settled.map Prod.fst).Perm (List.range (w.tabs tab).issued) ∧
      (∀ key, (w.tabs tab).sent.count key ≤ 2) ∧
      ((w.tabs tab).waiting ≠ [] →
        ∃ flight ∈ w.flights, flight.tab = tab ∧ w.now ≤ flight.sentAt + delay ∧
          ∀ other ∈ w.flights, other.tab = tab → other = flight) := by
  have hpaired : Paired delay w :=
    h.invariant (fun _ hidle => hidle.paired) fun _ _ _ hbefore hsteps => hbefore.step hsteps
  obtain ⟨again, hagain⟩ := hpaired.accounted tab
  refine ⟨hagain.places, ?_, ?_⟩
  · intro key
    have hcount := List.perm_iff_count.mp hagain.sent key
    have hfirst := List.nodup_iff_count_le_one.mp (@List.nodup_range (w.tabs tab).issued) key
    have hsecond := List.nodup_iff_count_le_one.mp hagain.once key
    rw [List.count_append] at hcount
    omega
  · intro hwaits
    obtain ⟨flight, hflight, htab⟩ := List.mem_map.mp ((hpaired.promised tab).mp (hagain.promised hwaits))
    refine ⟨flight, hflight, htab, (hpaired.times flight hflight).2, ?_⟩
    intro other hother htab'
    exact List.inj_on_of_nodup_map hpaired.single hother hflight (htab'.trans htab.symm)

/-- A page asks for something and is refused. The newest first. -/
def refusedOnce : List Moment :=
  [⟨2, .page 0 (.answered ⟨0, "/users", false, none⟩ (some 401))⟩, ⟨1, .page 0 (.request "/users")⟩]

def newWorld : World := ⟨0, officePlatform, cookieOf 4 .hr 0 1, fun _ => {}, []⟩

theorem refusedOnce_run : BrowserRun ordinarySettings 30 4 Idle
    (replay (World.next ordinarySettings) newWorld refusedOnce)
    (endState (World.next ordinarySettings) newWorld refusedOnce) := by
  apply run_replay ⟨fun _ => ⟨none, rfl⟩, rfl⟩
  unfold refusedOnce
  simp only [replay, List.forall_mem_cons, List.not_mem_nil, false_imp_iff, implies_true, and_true]
  refine ⟨⟨by decide, ?_, List.mem_cons_self, rfl⟩, ⟨by decide, ?_, trivial, rfl⟩⟩
  · intro flight hflight
    cases hflight
  · intro flight hflight
    cases hflight

/-- Its request waits for the refresh that is under way. -/
theorem refused_request_waits :
    let w := endState (World.next ordinarySettings) newWorld refusedOnce
    (w.tabs 0).waiting = [⟨0, "/users", true, none⟩] ∧
      ∃ flight ∈ w.flights, flight.tab = 0 ∧ w.now ≤ flight.sentAt + 30 ∧
        ∀ other ∈ w.flights, other.tab = 0 → other = flight :=
  ⟨rfl, (requests_are_accounted_for refusedOnce_run 0).2.2 (List.cons_ne_nil _ _)⟩

end NexaHR.Browser
