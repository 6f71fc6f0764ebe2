import Mathlib.Logic.Function.Basic
import NexaHR.System.PlatformStep

/-! # The tabs of a browser

`api/client.ts` with the use that `AuthContext.tsx` makes of it. A tab has its access token in its memory. When a
request is refused for want of one, the tab asks for another and then sends the request again; the requests
that are refused meanwhile wait for the same answer. The refresh cookie belongs to the browser, and so to all tabs.

* `Tab`, `Tab.next`: one tab, and what a request, an answer or a new token does to it.
* `Flight`: a `POST /auth/refresh` on its way to the server, or its answer on the way back.
* `World`, `World.next`: the tabs, the cookie, the flights and the platform.
* `BrowserRun`: the runs in which a flight takes at most a given time.
-/

namespace NexaHR.Browser

open Foundations

set_option autoImplicit false

/-! ## A tab -/

/-- A request of the page. `key` tells which one it is, also when it is sent again. -/
structure ApiCall where
  key : Nat
  url : String
  retried : Bool
  bearer : Option Token
  deriving DecidableEq

def isAuthEndpoint (url : String) : Bool := "/auth/".toList.isPrefixOf url.toList

/-- `refreshing` says that there is a `refreshPromise`. The rest is what the page has on its way or heard of:
`issued` counts its requests, `sent` are their keys in the order in which they went out, the newest first, and
`settled` says how they ended. -/
structure Tab where
  accessToken : Option Token := none
  refreshing : Bool := false
  atLogin : Bool := false
  forbidden : Nat := 0
  issued : Nat := 0
  inFlight : List ApiCall := []
  waiting : List ApiCall := []
  settled : List (Nat × Bool) := []
  sent : List Nat := []

namespace Tab

/-- The interceptor of requests. -/
def send (tab : Tab) (call : ApiCall) : Tab :=
  { tab with
    inFlight := { call with bearer := tab.accessToken.orElse fun _ => call.bearer } :: tab.inFlight
    sent := call.key :: tab.sent }

def request (tab : Tab) (url : String) : Tab :=
  ({ tab with issued := tab.issued + 1 }).send ⟨tab.issued, url, false, none⟩

def settle (tab : Tab) (call : ApiCall) (ok : Bool) : Tab :=
  { tab with settled := (call.key, ok) :: tab.settled }

/-- `refreshAccessToken`, and whether it sends a request. -/
def refreshAccessToken (tab : Tab) : Tab × Bool := ({ tab with refreshing := true }, !tab.refreshing)

/-- The interceptor of responses; no status where no response came. -/
def answered (tab : Tab) (call : ApiCall) (status : Option Nat) : Tab × Bool :=
  let tab := { tab with inFlight := tab.inFlight.erase call }
  if status.any (fun code => 200 ≤ code && code < 300) then (tab.settle call true, false)
  else
    let tab := if status = some 403 then { tab with forbidden := tab.forbidden + 1 } else tab
    -- A path of `auth` that answers 401 says that the password is wrong, not that the session has ended.
    if status = some 401 ∧ call.retried = false ∧ isAuthEndpoint call.url = false then
      ({ tab with waiting := tab.waiting ++ [{ call with retried := true }] }).refreshAccessToken
    else (tab.settle call false, false)

/-- The promise of `refreshAccessTokenOnce` is fulfilled, and those who wait for it go on. -/
def refreshed (tab : Tab) (token : Option Token) : Tab :=
  let woken := { tab with accessToken := token, refreshing := false, waiting := [] }
  match token with
  | some newToken => tab.waiting.foldl (fun tab call => tab.send { call with bearer := some newToken }) woken
  | none =>
    tab.waiting.foldl (fun tab call => tab.settle call false)
      { woken with atLogin := tab.atLogin || !tab.waiting.isEmpty }

end Tab

/-- What happens in a page beside the answer to a refresh. `restore` is the start of `fetchMe`; `setToken` is
`authToken.set`. -/
inductive TabEvent
  | request (url : String)
  | answered (call : ApiCall) (status : Option Nat)
  | restore
  | setToken (token : Option Token)

def Tab.next (tab : Tab) : TabEvent → Tab × Bool
  | .request url => (tab.request url, false)
  | .answered call status => tab.answered call status
  | .restore => if tab.accessToken = none then tab.refreshAccessToken else (tab, false)
  | .setToken token => ({ tab with accessToken := token }, false)

/-! ## Between the browser and the server -/

/-- What the answer to a refresh brings to the tab and to the browser. -/
structure RefreshAnswer where
  accessToken : Option Token
  setCookie : Option Token
  deriving DecidableEq

def readAnswer : Except HTTPException Reply → RefreshAnswer
  | .ok (.accessTokenResponse accessToken refreshCookie) => ⟨some accessToken, refreshCookie⟩
  | _ => ⟨none, none⟩

/-- A refresh of a tab, with the cookie that the browser had when it was sent. -/
structure Flight where
  tab : Nat
  sentAt : Nat
  cookie : Token
  answer : Option RefreshAnswer
  deriving DecidableEq

structure World where
  now : Nat
  platform : Platform
  jar : Token
  tabs : Nat → Tab
  flights : List Flight

/-- `refused` is a refresh that the server did not look at: the limiter of rates turned it away, or it was lost on
its way there. `elsewhere` is any other request to the server, of this browser or of somebody else. -/
inductive BrowserEvent
  | page (tab : Nat) (event : TabEvent)
  | served (flight : Flight) (visit : Visit)
  | refused (flight : Flight)
  | arrived (flight : Flight)
  | elsewhere (req : PlatformRequest)

structure Moment where
  time : Nat
  event : BrowserEvent

def refreshRequest (flight : Flight) (visit : Visit) : PlatformRequest :=
  { visit with call := .refresh (some flight.cookie) }

namespace World

def page (w : World) (tab : Nat) (event : TabEvent) : World :=
  let moved := (w.tabs tab).next event
  { w with
    tabs := Function.update w.tabs tab moved.1
    flights := if moved.2 then ⟨tab, w.now, w.jar, none⟩ :: w.flights else w.flights }

def answer (w : World) (flight : Flight) (answer : RefreshAnswer) : World :=
  { w with flights := { flight with answer := some answer } :: w.flights.erase flight }

def served (S : Deployment) (w : World) (flight : Flight) (visit : Visit) : World :=
  let served := serve S w.platform (refreshRequest flight visit)
  ({ w with platform := served.2 }).answer flight (readAnswer served.1)

def arrived (w : World) (flight : Flight) : World :=
  match flight.answer with
  | none => w
  | some answer =>
    { w with
      jar := answer.setCookie.getD w.jar
      tabs := Function.update w.tabs flight.tab ((w.tabs flight.tab).refreshed answer.accessToken)
      flights := w.flights.erase flight }

def next (S : Deployment) (w : World) (moment : Moment) : World :=
  let w := { w with now := moment.time }
  match moment.event with
  | .page tab event => w.page tab event
  | .served flight visit => w.served S flight visit
  | .refused flight => w.answer flight ⟨none, none⟩
  | .arrived flight => w.arrived flight
  | .elsewhere req => { w with platform := (serve S w.platform req).2 }

end World

/-! ## Runs -/

/-- The step leaves an account and its sessions alone, as far as they have not ended. -/
structure Undisturbed (userId now : Nat) (p p' : Platform) : Prop where
  active : (p.db.users.get? userId).any User.isActive = true → (p'.db.users.get? userId).any User.isActive = true
  version : p'.tokenVersion userId = p.tokenVersion userId
  sessions : ∀ s ∈ p.authSessions, s.userId = userId → s.revokedAt = none → now < s.expiresAt → s ∈ p'.authSessions

/-- What can happen at a moment. -/
def Possible (S : Deployment) (userId : Nat) (w : World) (moment : Moment) : Prop :=
  match moment.event with
  | .page tab (.answered call _) => call ∈ (w.tabs tab).inFlight
  | .page _ _ => True
  | .served flight visit => flight ∈ w.flights ∧ flight.answer = none ∧ visit.env.now = moment.time
  | .refused flight => flight ∈ w.flights ∧ flight.answer = none
  | .arrived flight => flight ∈ w.flights ∧ flight.answer ≠ none
  | .elsewhere req =>
    req.env.now = moment.time ∧ Undisturbed userId moment.time w.platform (serve S w.platform req).2

/-- Time goes on, but not so far that a refresh were under way for longer than `delay`. -/
structure BrowserSteps (S : Deployment) (delay userId : Nat) (w : World) (moment : Moment) (w' : World) : Prop where
  later : w.now ≤ moment.time
  inTime : ∀ flight ∈ w.flights, moment.time ≤ flight.sentAt + delay
  possible : Possible S userId w moment
  next_eq : w' = w.next S moment

abbrev BrowserRun (S : Deployment) (delay userId : Nat) (init : World → Prop) (tr : List (Taken World Moment))
    (w : World) : Prop :=
  Run init (BrowserSteps S delay userId) tr w

end NexaHR.Browser
