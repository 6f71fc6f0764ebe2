import NexaHR.Properties.Logout
import NexaHR.Properties.TabRequests

/-! # Many tabs and one cookie

The tabs of a browser send the same refresh cookie, each when it needs a token, while only the first of them may
exchange it. The server lets the others pass for a minute. That is long enough when a refresh and its answer take at
most half a minute, and not longer.

* `Carries`: what is known of a cookie that is under way, until it expires.
* `refreshEnd`: how the server answers to such a cookie.
* `Newest`, `Recent`, `Coherent`: how far the cookies of the browser lag behind the server.
* `grace_is_two_trips`: in every run no refresh is taken for a theft, exactly if two trips fit in the time of grace.
-/

namespace NexaHR.Browser

open Foundations

set_option autoImplicit false

/-! ## The cookie -/

/-- The session of a token, as long as it has not ended. -/
structure SessionFor (p : Platform) (userId : Nat) (token : Token) (s : AuthSession) : Prop where
  mem : s ∈ p.authSessions
  jti : token.jti = some s.jti
  owner : s.userId = userId
  opened : s.revokedAt = none
  expires : s.expiresAt = token.exp

/-- The token is a refresh cookie of the account. Until it expires it has a session, of whose exchange `C` holds. -/
structure Carries (p : Platform) (userId now : Nat) (token : Token) (C : Option Nat → Prop) : Prop where
  sub : token.sub = userId
  type : token.type = .refresh
  version : token.tv = p.tokenVersion userId
  issued : token.iat ≤ now
  session : now < token.exp → ∃ s, SessionFor p userId token s ∧ C s.rotatedAt

section

variable {S : Deployment} {p p' : Platform} {userId now : Nat} {token : Token} {C C' : Option Nat → Prop}

theorem Carries.later (h : Carries p userId now token C) {now' : Nat} (hle : now ≤ now') :
    Carries p userId now' token C where
  sub := h.sub
  type := h.type
  version := h.version
  issued := Nat.le_trans h.issued hle
  session := fun hnow => h.session (Nat.lt_of_le_of_lt hle hnow)

theorem Carries.mono (h : Carries p userId now token C)
    (hC : ∀ s, now < token.exp → SessionFor p userId token s → C s.rotatedAt → C' s.rotatedAt) :
    Carries p userId now token C' where
  sub := h.sub
  type := h.type
  version := h.version
  issued := h.issued
  session := by
    intro hnow
    obtain ⟨s, hs, hCs⟩ := h.session hnow
    exact ⟨s, hs, hC s hnow hs hCs⟩

theorem SessionFor.unique {s s' : AuthSession} (hkeyed : WellKeyed p) (hs : SessionFor p userId token s)
    (hs' : SessionFor p userId token s') : s = s' := by
  apply hkeyed.unique s hs.mem s' hs'.mem
  have hjti := hs.jti.symm.trans hs'.jti
  exact Option.some.inj hjti

/-- Where the sessions of the account and its tokens stay, so does what a cookie carries. -/
theorem Carries.undisturbed (h : Carries p userId now token C) (hkept : Undisturbed userId now p p') :
    Carries p' userId now token C where
  sub := h.sub
  type := h.type
  version := h.version.trans hkept.version.symm
  issued := h.issued
  session := by
    intro hnow
    obtain ⟨s, hs, hCs⟩ := h.session hnow
    have hmem := hkept.sessions s hs.mem hs.owner hs.opened (by rw [hs.expires]; exact hnow)
    exact ⟨s, ⟨hmem, hs.jti, hs.owner, hs.opened, hs.expires⟩, hCs⟩

theorem Carries.bearer (h : Carries p userId now token C)
    (hactive : (p.db.users.get? userId).any User.isActive = true) (hnow : now < token.exp) :
    ∃ user s, user.id = userId ∧ SessionFor p userId token s ∧ C s.rotatedAt ∧
      refreshBearer p now (some token) = .ok (user, s.jti) := by
  obtain ⟨s, hs, hCs⟩ := h.session hnow
  cases huser : p.db.users.get? userId with
  | none =>
    rw [huser] at hactive
    cases hactive
  | some user =>
    rw [huser] at hactive
    have hid : user.id = userId := Table.id_of_get? huser
    have hdecoded : decodeToken now token = some token := if_pos ⟨h.issued, hnow⟩
    refine ⟨user, s, hid, hs, hCs, ?_⟩
    unfold refreshBearer
    simp only [bind_eq_ok, pure_eq_ok, require_eq_ok, ensure_eq_ok]
    refine ⟨token, rfl, token, hdecoded, (), h.type, s.jti, hs.jti, user, ?_, (), hactive, (), ?_, rfl⟩
    · rw [h.sub]
      exact huser
    · rw [h.version, hid]

theorem refused_of_expired {visit : Visit} (hexpired : token.exp ≤ visit.env.now) :
    refresh S p visit (some token) = (.error invalidSession, p) := by
  have hdecoded : decodeToken visit.env.now token = none := if_neg (by omega)
  have hrefused : refreshBearer p visit.env.now (some token) = .error invalidSession := by
    show (require (decodeToken visit.env.now token) invalidSession >>= _) = _
    rw [hdecoded]
    rfl
  unfold refresh
  rw [hrefused]

theorem isDead_eq {s : AuthSession} (hs : SessionFor p userId token s) (hnow : now < token.exp) :
    s.isDead now userId = false := by
  have hexpires := hs.expires
  unfold AuthSession.isDead
  rw [hs.owner, hs.opened]
  simp
  omega

/-- How the server answers to such a cookie. -/
inductive RefreshEnd (S : Deployment) (p : Platform) (userId now : Nat) (token : Token) (C : Option Nat → Prop) :
    Answer → Prop
  | expired (hexpired : token.exp ≤ now) : RefreshEnd S p userId now token C (.error invalidSession, p)
  | inGrace (accessToken : Token) : RefreshEnd S p userId now token C (.ok (.accessTokenResponse accessToken none), p)
  | reused (s : AuthSession) (hs : SessionFor p userId token s) (r : Nat) (hrotated : s.rotatedAt = some r)
      (hC : C (some r)) (hlate : rotationGraceSeconds < now - r) :
      RefreshEnd S p userId now token C (.error invalidSession, revokeAllForUser p now userId)
  | rotated (s : AuthSession) (hs : SessionFor p userId token s) (hfresh : s.rotatedAt = none) (hC : C none)
      (hnow : now < token.exp) (accessToken : Token) (user : User) (hid : user.id = userId)
      (userAgent ip : Option String) :
      RefreshEnd S p userId now token C
        (.ok (.accessTokenResponse accessToken
          (some (createRefreshToken S now user (p.tokenVersion userId) (p.drawn + 1)))),
        rotatedTo S p now userId userAgent ip s)

theorem refreshEnd (hkeyed : WellKeyed p) (hactive : (p.db.users.get? userId).any User.isActive = true)
    {visit : Visit} (h : Carries p userId visit.env.now token C) :
    RefreshEnd S p userId visit.env.now token C (refresh S p visit (some token)) := by
  by_cases hnow : visit.env.now < token.exp
  · obtain ⟨user, s, hid, hs, hCs, hbearer⟩ := h.bearer hactive hnow
    have hfound : sessionOf p s.jti = some s := sessionOf_of_mem hkeyed hs.mem
    have hlive := isDead_eq hs hnow
    subst hid
    unfold refresh
    rw [hbearer]
    dsimp only
    have hend := rotationEnd S p visit.env.now user.id s.jti visit.userAgent visit.ip
    generalize rotateSession S p visit.env.now user.id s.jti visit.userAgent visit.ip = result at hend
    cases hend with
    | reuse hrefused =>
      cases hrefused s hfound with
      | inl hdead =>
        rw [hlive] at hdead
        cases hdead
      | inr hlate =>
        obtain ⟨r, hrotated, hlong⟩ := hlate
        rw [hrotated] at hCs
        exact RefreshEnd.reused s hs r hrotated hCs hlong
    | inGrace session _ _ _ _ _ => exact RefreshEnd.inGrace _
    | rotated session hsession _ hfresh =>
      rw [hfound] at hsession
      cases hsession
      rw [hfresh] at hCs
      exact RefreshEnd.rotated s hs hfresh hCs hnow _ user rfl visit.userAgent visit.ip
  · rw [refused_of_expired (by omega)]
    exact RefreshEnd.expired (by omega)

/-! ### An exchange -/

theorem mem_rotatedTo_of_ne {s t : AuthSession} {userAgent ip : Option String} (hs : s ∈ p.authSessions)
    (ht : t ∈ p.authSessions) (hne : t ≠ s) : t ∈ (rotatedTo S p now userId userAgent ip s).authSessions := by
  apply Table.mem_put_of_ne
  · exact (Table.mem_insert (newSession_id S now userId (p.drawn + 1) _ _)).mpr (Or.inl ht)
  · exact fun hid => hne (Table.eq_of_id_eq ht hs hid)

theorem new_mem_rotatedTo {s : AuthSession} {userAgent ip : Option String} (hs : s ∈ p.authSessions) :
    newSession S now userId (p.drawn + 1) (orInherited userAgent s.userAgent) (orInherited ip s.ip)
      (p.authSessions.seq + 1) ∈ (rotatedTo S p now userId userAgent ip s).authSessions := by
  have hnew := newSession_id S now userId (p.drawn + 1) (orInherited userAgent s.userAgent) (orInherited ip s.ip)
  apply Table.mem_put_of_ne
  · exact (Table.mem_insert hnew).mpr (Or.inr rfl)
  · intro hid
    have hle := p.authSessions.le_seq s hs
    have hseq : p.authSessions.seq + 1 = HasId.id s := hid
    omega

theorem mem_of_rotatedTo {s t : AuthSession} {userAgent ip : Option String} (hopen : s.revokedAt = none)
    (ht : t ∈ (rotatedTo S p now userId userAgent ip s).authSessions) : t ∈ p.authSessions ∨ t.revokedAt = none := by
  cases Table.mem_put ht with
  | inl hcreated =>
    cases mem_createSession hcreated.1 with
    | inl hold => exact Or.inl hold
    | inr hnew =>
      right
      rw [hnew]
      rfl
  | inr hmarked =>
    right
    rw [hmarked]
    exact hopen

/-- The other cookies keep their sessions, and the exchanged one is marked. -/
theorem Carries.rotated {s : AuthSession} {cookie : Token} {userAgent ip : Option String} (hkeyed : WellKeyed p)
    (h : Carries p userId now token C) (hs : SessionFor p userId cookie s) (hown : C' (some now))
    (hother : ∀ t, SessionFor p userId token t → t ≠ s → C t.rotatedAt → C' t.rotatedAt) :
    Carries (rotatedTo S p now userId userAgent ip s) userId now token C' where
  sub := h.sub
  type := h.type
  version := h.version
  issued := h.issued
  session := by
    intro hnow
    obtain ⟨t, ht, hCt⟩ := h.session hnow
    by_cases hsame : t = s
    · subst hsame
      have hfound : sessionOf p t.jti = some t := sessionOf_of_mem hkeyed hs.mem
      exact ⟨_, ⟨mem_rotatedTo hfound, ht.jti, ht.owner, ht.opened, ht.expires⟩, hown⟩
    · exact ⟨t, ⟨mem_rotatedTo_of_ne hs.mem ht.mem hsame, ht.jti, ht.owner, ht.opened, ht.expires⟩,
        hother t ht hsame hCt⟩

/-- The new cookie has a session of its own. -/
theorem carries_new {s : AuthSession} {user : User} {userAgent ip : Option String} (hs : s ∈ p.authSessions)
    (hid : user.id = userId) :
    Carries (rotatedTo S p now userId userAgent ip s) userId now
      (createRefreshToken S now user (p.tokenVersion userId) (p.drawn + 1)) (· = none) where
  sub := hid
  type := rfl
  version := rfl
  issued := Nat.le_refl _
  session := fun _ => ⟨_, ⟨new_mem_rotatedTo hs, rfl, rfl, rfl, rfl⟩, rfl⟩

end

/-! ## All cookies of the browser -/

/-- The cookie that an answer on its way back brings. -/
def Flight.brings (flight : Flight) : Option Token := flight.answer.bind RefreshAnswer.setCookie

/-- The browser's cookie was not exchanged, or its successor is on its way. -/
def Newest (flights : List Flight) : Option Nat → Prop
  | none => ∀ flight ∈ flights, flight.brings = none
  | some r => ∃ flight ∈ flights, flight.brings ≠ none ∧ flight.sentAt ≤ r

/-- The cookie that was sent is the browser's still, or was exchanged at most one trip before. -/
def Recent (delay : Nat) (jar : Token) (flight : Flight) : Option Nat → Prop
  | none => flight.cookie = jar
  | some r => flight.sentAt ≤ r + delay

structure Coherent (delay userId : Nat) (w : World) : Prop where
  keyed : WellKeyed w.platform
  active : (w.platform.db.users.get? userId).any User.isActive = true
  jar : Carries w.platform userId w.now w.jar (Newest w.flights)
  asked : ∀ flight ∈ w.flights, flight.answer = none →
    Carries w.platform userId w.now flight.cookie (Recent delay w.jar flight)
  brought : ∀ flight ∈ w.flights, ∀ cookie, flight.brings = some cookie →
    Carries w.platform userId w.now cookie (· = none)
  one : ∀ flight ∈ w.flights, ∀ other ∈ w.flights, flight.brings ≠ none → other.brings ≠ none → flight = other

section

variable {S : Deployment} {delay userId : Nat} {w : World}

theorem Coherent.later (h : Coherent delay userId w) {time : Nat} (hle : w.now ≤ time) :
    Coherent delay userId { w with now := time } where
  keyed := h.keyed
  active := h.active
  jar := h.jar.later hle
  asked := fun flight hflight hanswer => (h.asked flight hflight hanswer).later hle
  brought := fun flight hflight cookie hcookie => (h.brought flight hflight cookie hcookie).later hle
  one := h.one

theorem Coherent.elsewhere (h : Coherent delay userId w) {p' : Platform} (hkeyed : WellKeyed p')
    (hkept : Undisturbed userId w.now w.platform p') : Coherent delay userId { w with platform := p' } where
  keyed := hkeyed
  active := hkept.active h.active
  jar := h.jar.undisturbed hkept
  asked := fun flight hflight hanswer => (h.asked flight hflight hanswer).undisturbed hkept
  brought := fun flight hflight cookie hcookie => (h.brought flight hflight cookie hcookie).undisturbed hkept
  one := h.one

theorem Coherent.page (h : Coherent delay userId w) (hpaired : Paired delay w) (tab : Nat) (event : TabEvent) :
    Coherent delay userId (w.page tab event) := by
  cases hsends : ((w.tabs tab).next event).2 with
  | false =>
    rw [page_quiet hsends]
    exact ⟨h.keyed, h.active, h.jar, h.asked, h.brought, h.one⟩
  | true =>
    rw [page_asks hsends]
    constructor
    · exact h.keyed
    · exact h.active
    · apply h.jar.mono
      intro s _ _ hnewest
      cases hrotated : s.rotatedAt with
      | none =>
        rw [hrotated] at hnewest
        exact List.forall_mem_cons.mpr ⟨rfl, hnewest⟩
      | some r =>
        rw [hrotated] at hnewest
        obtain ⟨flight, hflight, hbrings, hsent⟩ := hnewest
        exact ⟨flight, List.mem_cons_of_mem _ hflight, hbrings, hsent⟩
    · intro flight hflight hanswer
      cases List.mem_cons.mp hflight with
      | inl hnew =>
        subst hnew
        apply h.jar.mono
        intro s _ _ hnewest
        cases hrotated : s.rotatedAt with
        | none => exact rfl
        | some r =>
          rw [hrotated] at hnewest
          obtain ⟨bringing, hbringing, _, hsent⟩ := hnewest
          have htimes := (hpaired.times bringing hbringing).2
          show w.now ≤ r + delay
          omega
      | inr hold => exact h.asked flight hold hanswer
    · intro flight hflight cookie hcookie
      cases List.mem_cons.mp hflight with
      | inl hnew =>
        subst hnew
        cases hcookie
      | inr hold => exact h.brought flight hold cookie hcookie
    · intro flight hflight other hother hbrings hbrings'
      cases List.mem_cons.mp hflight with
      | inl hnew =>
        subst hnew
        exact absurd rfl hbrings
      | inr hold =>
        cases List.mem_cons.mp hother with
        | inl hnew =>
          subst hnew
          exact absurd rfl hbrings'
        | inr hold' => exact h.one flight hold other hold' hbrings hbrings'

/-- What brings a cookie stays, when another flight changes its way or ends. -/
theorem newest_erase {flights : List Flight} {flight : Flight} (hbrings : flight.brings = none) {rotatedAt : Option Nat}
    (h : Newest flights rotatedAt) : Newest (flights.erase flight) rotatedAt := by
  cases rotatedAt with
  | none => exact fun other hother => h other (List.mem_of_mem_erase hother)
  | some r =>
    obtain ⟨other, hother, hbrings', hsent⟩ := h
    have hne : other ≠ flight := by
      intro heq
      rw [heq] at hbrings'
      exact hbrings' hbrings
    exact ⟨other, (List.mem_erase_of_ne hne).mpr hother, hbrings', hsent⟩

theorem newest_cons {flights : List Flight} {flight : Flight} (hbrings : flight.brings = none) {rotatedAt : Option Nat}
    (h : Newest flights rotatedAt) : Newest (flight :: flights) rotatedAt := by
  cases rotatedAt with
  | none => exact List.forall_mem_cons.mpr ⟨hbrings, h⟩
  | some r =>
    obtain ⟨other, hother, hbrings', hsent⟩ := h
    exact ⟨other, List.mem_cons_of_mem _ hother, hbrings', hsent⟩

/-- An answer without a cookie. -/
theorem Coherent.answer (h : Coherent delay userId w) {flight : Flight} (hasked : flight.answer = none)
    {answer : RefreshAnswer} (hsilent : answer.setCookie = none) : Coherent delay userId (w.answer flight answer) := by
  have hbefore : flight.brings = none := by
    unfold Flight.brings
    rw [hasked]
    rfl
  have hafter : ({ flight with answer := some answer } : Flight).brings = none := hsilent
  constructor
  · exact h.keyed
  · exact h.active
  · apply h.jar.mono
    intro s _ _ hnewest
    exact newest_cons hafter (newest_erase hbefore hnewest)
  · intro other hother hanswer
    cases List.mem_cons.mp hother with
    | inl hnew =>
      subst hnew
      cases hanswer
    | inr hold => exact h.asked other (List.mem_of_mem_erase hold) hanswer
  · intro other hother cookie hcookie
    cases List.mem_cons.mp hother with
    | inl hnew =>
      subst hnew
      rw [hafter] at hcookie
      cases hcookie
    | inr hold => exact h.brought other (List.mem_of_mem_erase hold) cookie hcookie
  · intro other hother third hthird hbrings hbrings'
    cases List.mem_cons.mp hother with
    | inl hnew =>
      subst hnew
      exact absurd hafter hbrings
    | inr hold =>
      cases List.mem_cons.mp hthird with
      | inl hnew =>
        subst hnew
        exact absurd hafter hbrings'
      | inr hold' =>
        exact h.one other (List.mem_of_mem_erase hold) third (List.mem_of_mem_erase hold') hbrings hbrings'

theorem Coherent.served_rotated (h : Coherent delay userId w) (hpaired : Paired delay w) {flight : Flight}
    (hflight : flight ∈ w.flights) {s : AuthSession} (hs : SessionFor w.platform userId flight.cookie s)
    (hjar : flight.cookie = w.jar) (hfresh : s.rotatedAt = none) (hnow : w.now < flight.cookie.exp) {user : User}
    (hid : user.id = userId) {userAgent ip : Option String} {p' : Platform}
    (hp' : p' = { rotatedTo S w.platform w.now userId userAgent ip s with clock := w.now })
    {answer : RefreshAnswer}
    (hcookie : answer.setCookie =
      some (createRefreshToken S w.now user (w.platform.tokenVersion userId) (w.platform.drawn + 1))) :
    Coherent delay userId (({ w with platform := p' } : World).answer flight answer) := by
  have hnone : ∀ other ∈ w.flights, other.brings = none := by
    rw [hjar] at hs hnow
    obtain ⟨t, ht, hnewest⟩ := h.jar.session hnow
    rw [← hs.unique h.keyed ht, hfresh] at hnewest
    exact hnewest
  have hbrings : ({ flight with answer := some answer } : Flight).brings =
      some (createRefreshToken S w.now user (w.platform.tokenVersion userId) (w.platform.drawn + 1)) := hcookie
  have hsent := (hpaired.times flight hflight).1
  have hcarries : ∀ {token : Token} {C : Option Nat → Prop},
      Carries (rotatedTo S w.platform w.now userId userAgent ip s) userId w.now token C →
      Carries p' userId w.now token C := by
    intro token C hold
    rw [hp']
    exact hold.undisturbed ⟨fun hactive => hactive, rfl, fun _ hmem _ _ _ => hmem⟩
  constructor
  · show WellKeyed p'
    have hfound : sessionOf w.platform s.jti = some s := sessionOf_of_mem h.keyed hs.mem
    have hclock : SessionsLater (rotatedTo S w.platform w.now userId userAgent ip s) p' := by
      rw [hp']
      exact SessionsLater.of_same rfl rfl
    exact ((rotatedTo_later hfound hfresh).trans hclock).keyed h.keyed
  · show (p'.db.users.get? userId).any User.isActive = true
    rw [hp']
    exact h.active
  · apply hcarries
    apply h.jar.rotated h.keyed hs
    · exact ⟨_, List.mem_cons_self, by rw [hbrings]; exact Option.some_ne_none _, hsent⟩
    · intro t ht hne _
      rw [← hjar] at ht
      exact absurd (ht.unique h.keyed hs) hne
  · intro other hother hanswer
    cases List.mem_cons.mp hother with
    | inl hnew =>
      subst hnew
      cases hanswer
    | inr hold =>
      have hmem := List.mem_of_mem_erase hold
      apply hcarries
      apply (h.asked other hmem hanswer).rotated h.keyed hs
      · have hother := (hpaired.times other hmem).1
        show other.sentAt ≤ w.now + delay
        omega
      · exact fun _ _ _ hrecent => hrecent
  · intro other hother cookie hbrought
    cases List.mem_cons.mp hother with
    | inl hnew =>
      subst hnew
      rw [hbrings] at hbrought
      cases hbrought
      exact hcarries (carries_new hs.mem hid)
    | inr hold =>
      rw [hnone other (List.mem_of_mem_erase hold)] at hbrought
      cases hbrought
  · intro other hother third hthird hsome hsome'
    cases List.mem_cons.mp hother with
    | inl hnew =>
      cases List.mem_cons.mp hthird with
      | inl hnew' => rw [hnew, hnew']
      | inr hold' => exact absurd (hnone third (List.mem_of_mem_erase hold')) hsome'
    | inr hold => exact absurd (hnone other (List.mem_of_mem_erase hold)) hsome

/-- A flight arrives, and the cookie that it may bring becomes the browser's. -/
theorem Coherent.arrived (h : Coherent delay userId w) (hpaired : Paired delay w) {flight : Flight}
    (hflight : flight ∈ w.flights) : Coherent delay userId (w.arrived flight) := by
  have hgone : flight ∉ w.flights.erase flight := (hpaired.single.of_map _).not_mem_erase
  unfold World.arrived
  cases hanswer : flight.answer with
  | none => exact h
  | some answer =>
    have hbrings : flight.brings = answer.setCookie := by
      unfold Flight.brings
      rw [hanswer]
      rfl
    dsimp only
    cases hcookie : answer.setCookie with
    | none =>
      rw [hcookie] at hbrings
      constructor
      · exact h.keyed
      · exact h.active
      · apply h.jar.mono
        exact fun _ _ _ hnewest => newest_erase hbrings hnewest
      · exact fun other hother => h.asked other (List.mem_of_mem_erase hother)
      · exact fun other hother => h.brought other (List.mem_of_mem_erase hother)
      · intro other hother third hthird
        exact h.one other (List.mem_of_mem_erase hother) third (List.mem_of_mem_erase hthird)
    | some cookie =>
      rw [hcookie] at hbrings
      have hsome : flight.brings ≠ none := by
        rw [hbrings]
        exact Option.some_ne_none cookie
      have halone : ∀ other ∈ w.flights.erase flight, other.brings = none := by
        intro other hother
        by_contra hsome'
        have hsame := h.one other (List.mem_of_mem_erase hother) flight hflight hsome' hsome
        rw [hsame] at hother
        exact hgone hother
      constructor
      · exact h.keyed
      · exact h.active
      · apply (h.brought flight hflight cookie hbrings).mono
        intro s _ _ hfresh
        rw [hfresh]
        exact halone
      · intro other hother hasked
        apply (h.asked other (List.mem_of_mem_erase hother) hasked).mono
        intro s hnow hs hrecent
        cases hrotated : s.rotatedAt with
        | some r =>
          rw [hrotated] at hrecent
          exact hrecent
        | none =>
          -- The browser's cookie has a successor on its way, so its session is marked.
          rw [hrotated] at hrecent
          have hjar : other.cookie = w.jar := hrecent
          rw [hjar] at hs hnow
          obtain ⟨t, ht, hnewest⟩ := h.jar.session hnow
          rw [← hs.unique h.keyed ht, hrotated] at hnewest
          exact absurd (hnewest flight hflight) hsome
      · exact fun other hother => h.brought other (List.mem_of_mem_erase hother)
      · intro other hother third hthird
        exact h.one other (List.mem_of_mem_erase hother) third (List.mem_of_mem_erase hthird)

/-- What the server makes of a refresh, while two trips are no longer than the time of grace. -/
theorem Coherent.served (h : Coherent delay userId w) (hpaired : Paired delay w)
    (hgrace : 2 * delay ≤ rotationGraceSeconds) {flight : Flight} (hflight : flight ∈ w.flights)
    (hasked : flight.answer = none) {visit : Visit} (hvisit : visit.env.now = w.now) :
    Coherent delay userId (w.served S flight visit) := by
  have hserve : serve S w.platform (refreshRequest flight visit) =
      ((refresh S w.platform visit (some flight.cookie)).1,
        { (refresh S w.platform visit (some flight.cookie)).2 with clock := w.now }) := by
    rw [← hvisit]
    rfl
  have hcarries := h.asked flight hflight hasked
  rw [← hvisit] at hcarries
  have hend := refreshEnd h.keyed h.active hcarries (S := S)
  have hkept : ∀ p' : Platform, p' = { w.platform with clock := w.now } →
      Coherent delay userId { w with platform := p' } := by
    intro p' hp'
    subst hp'
    have hclock : SessionsLater w.platform { w.platform with clock := w.now } := SessionsLater.of_same rfl rfl
    exact h.elsewhere (hclock.keyed h.keyed) ⟨fun hactive => hactive, rfl, fun _ hmem _ _ _ => hmem⟩
  unfold World.served
  dsimp only
  rw [hserve]
  dsimp only
  generalize refresh S w.platform visit (some flight.cookie) = result at hend
  cases hend with
  | expired _ => exact (hkept _ rfl).answer hasked rfl
  | inGrace _ => exact (hkept _ rfl).answer hasked rfl
  | reused s hs r hrotated hrecent hlate =>
    have hsent : flight.sentAt ≤ r + delay := hrecent
    have htimes := (hpaired.times flight hflight).2
    omega
  | rotated s hs hfresh hjar hnow accessToken user hid userAgent ip =>
    rw [hvisit] at hnow ⊢
    exact h.served_rotated hpaired hflight hs hjar hfresh hnow hid rfl rfl

theorem Coherent.step {w' : World} {moment : Moment} (h : Coherent delay userId w) (hpaired : Paired delay w)
    (hgrace : 2 * delay ≤ rotationGraceSeconds) (hsteps : BrowserSteps S delay userId w moment w') :
    Coherent delay userId w' := by
  have hnow := h.later hsteps.later
  have htimes : Paired delay { w with now := moment.time } := hpaired.later hsteps.later hsteps.inTime
  have hpossible := hsteps.possible
  rw [hsteps.next_eq]
  unfold World.next
  unfold Possible at hpossible
  cases hevent : moment.event with
  | page tab event => exact hnow.page htimes tab event
  | served flight visit =>
    rw [hevent] at hpossible
    obtain ⟨hflight, hasked, hvisit⟩ := hpossible
    exact hnow.served htimes hgrace hflight hasked hvisit
  | refused flight =>
    rw [hevent] at hpossible
    exact hnow.answer hpossible.2 rfl
  | arrived flight =>
    rw [hevent] at hpossible
    exact hnow.arrived htimes hpossible.1
  | elsewhere req =>
    rw [hevent] at hpossible
    have hlater : SessionsLater w.platform (serve S w.platform req).2 :=
      (run_later S w.platform req.toVisit req.call).trans (SessionsLater.of_same rfl rfl)
    exact hnow.elsewhere (hlater.keyed h.keyed) hpossible.2

end

/-! ## Runs -/

/-- The browser has a cookie that was never exchanged, and nothing is under way. -/
structure SignedInTo (userId : Nat) (w : World) : Prop where
  keyed : WellKeyed w.platform
  active : (w.platform.db.users.get? userId).any User.isActive = true
  jar : Carries w.platform userId w.now w.jar (· = none)
  idle : Idle w

section

variable {S : Deployment} {delay userId : Nat} {w : World} {tr : List (Taken World Moment)}

theorem SignedInTo.coherent (h : SignedInTo userId w) : Coherent delay userId w := by
  have hnone : ∀ flight, flight ∉ w.flights := by
    rw [h.idle.flights]
    exact fun _ => List.not_mem_nil
  constructor
  · exact h.keyed
  · exact h.active
  · apply h.jar.mono
    intro s _ _ hfresh
    rw [hfresh]
    exact fun flight hflight => absurd hflight (hnone flight)
  · exact fun flight hflight => absurd hflight (hnone flight)
  · exact fun flight hflight => absurd hflight (hnone flight)
  · exact fun flight hflight => absurd hflight (hnone flight)

theorem coherent_of_run (hgrace : 2 * delay ≤ rotationGraceSeconds)
    (h : BrowserRun S delay userId (SignedInTo userId) tr w) : Paired delay w ∧ Coherent delay userId w :=
  h.invariant (P := fun w => Paired delay w ∧ Coherent delay userId w)
    (fun _ hinit => ⟨hinit.idle.paired, hinit.coherent⟩)
    fun _ _ _ hboth hsteps => ⟨hboth.1.step hsteps, hboth.2.step hboth.1 hgrace hsteps⟩

/-! ### What the server may count on -/

/-- The server does not take the refresh for a theft: no session ends, and a cookie that has not expired gets an
access token. -/
structure Welcomed (x : Taken World Moment) (flight : Flight) : Prop where
  sessions : ∀ s ∈ x.before.platform.authSessions, ∀ s' ∈ x.after.platform.authSessions,
    s'.jti = s.jti → s.revokedAt = none → s'.revokedAt = none
  token : x.label.time < flight.cookie.exp →
    ∃ accessToken setCookie, { flight with answer := some ⟨some accessToken, setCookie⟩ } ∈ x.after.flights

theorem welcomed_of_coherent {w' : World} {moment : Moment} {flight : Flight} {visit : Visit}
    (hgrace : 2 * delay ≤ rotationGraceSeconds) (hcoherent : Coherent delay userId w)
    (hsteps : BrowserSteps S delay userId w moment w') (hevent : moment.event = .served flight visit) :
    Welcomed ⟨w, moment, w'⟩ flight := by
  have hnow := hcoherent.later hsteps.later
  have hpossible := hsteps.possible
  unfold Possible at hpossible
  rw [hevent] at hpossible
  obtain ⟨hflight, hasked, hvisit⟩ := hpossible
  have hcarries := hnow.asked flight hflight hasked
  dsimp only at hcarries
  rw [← hvisit] at hcarries
  have hend := refreshEnd hcoherent.keyed hcoherent.active hcarries (S := S)
  have hafter : w' = ({ w with
      now := moment.time
      platform := { (refresh S w.platform visit (some flight.cookie)).2 with clock := moment.time } } : World).answer
      flight (readAnswer (refresh S w.platform visit (some flight.cookie)).1) := by
    rw [hsteps.next_eq]
    unfold World.next
    rw [hevent, ← hvisit]
    rfl
  subst hafter
  generalize refresh S w.platform visit (some flight.cookie) = result at hend
  have hsame : ∀ s ∈ w.platform.authSessions, ∀ s' ∈ w.platform.authSessions,
      s'.jti = s.jti → s.revokedAt = none → s'.revokedAt = none := by
    intro s hs s' hs' hjti hopen
    rw [hcoherent.keyed.unique s' hs' s hs hjti]
    exact hopen
  cases hend with
  | expired hexpired =>
    refine ⟨hsame, ?_⟩
    intro hlive
    dsimp only at hlive
    omega
  | inGrace accessToken => exact ⟨hsame, fun _ => ⟨accessToken, none, List.mem_cons_self⟩⟩
  | reused s hs r hrotated hrecent hlate =>
    have hsent : flight.sentAt ≤ r + delay := hrecent
    have htime := hsteps.inTime flight hflight
    omega
  | rotated s hs hfresh hjar hlive accessToken user hid userAgent ip =>
    refine ⟨?_, fun _ => ⟨accessToken, _, List.mem_cons_self⟩⟩
    intro t ht t' ht' hjti hopen
    cases mem_of_rotatedTo hs.opened ht' with
    | inl hold => exact hsame t ht t' hold hjti hopen
    | inr hnew => exact hnew

end

/-! ### Two tabs and a slow connection -/

/-- The account 4 has just logged in. -/
def officeWorld : World where
  now := 1
  platform := served ordinarySettings officePlatform (requestAt 1 (.login "hr" "secret"))
  jar := cookieOf 4 .hr 1 1
  tabs := fun _ => {}
  flights := []

def visitAt (now : Nat) : Visit := (requestAt now .purgeStale).toVisit

/-- A refresh of the tab with the cookie of the login. -/
def twin (tab sentAt : Nat) : Flight := ⟨tab, sentAt, cookieOf 4 .hr 1 1, none⟩

def firstTwin : Flight := { twin 0 1 with answer := some ⟨bearerOf 4 .hr 1, some (cookieOf 4 .hr 1 2)⟩ }

/-- The refresh of the first tab is answered at once, but its answer is half a minute and a second on its way, and at
its arrival the second tab has just sent the same cookie. The newest first. -/
def slowTwins : List Moment :=
  [⟨63, .served (twin 1 32) (visitAt 63)⟩, ⟨32, .arrived firstTwin⟩, ⟨32, .page 1 .restore⟩,
    ⟨1, .served (twin 0 1) (visitAt 1)⟩, ⟨1, .page 0 .restore⟩]

theorem officeWorld_signedIn : SignedInTo 4 officeWorld where
  keyed := by
    have hlogin : PlatformSteps ordinarySettings officePlatform (requestAt 1 (.login "hr" "secret"))
        officeWorld.platform := ⟨by decide, rfl⟩
    exact (later_of_steps hlogin).keyed officePlatform_keyed
  active := by decide
  jar := by
    refine ⟨rfl, rfl, by decide, by decide, ?_⟩
    intro _
    have hsession : ∃ s ∈ officeWorld.platform.authSessions.rows, (cookieOf 4 .hr 1 1).jti = some s.jti ∧ s.userId = 4 ∧
        s.revokedAt = none ∧ s.expiresAt = (cookieOf 4 .hr 1 1).exp ∧ s.rotatedAt = none := by decide
    obtain ⟨s, hmem, hjti, howner, hopened, hexpires, hfresh⟩ := hsession
    exact ⟨s, ⟨hmem, hjti, howner, hopened, hexpires⟩, hfresh⟩
  idle := ⟨fun _ => ⟨none, rfl⟩, rfl⟩

theorem slowTwins_run {delay : Nat} (h : 31 ≤ delay) :
    BrowserRun ordinarySettings delay 4 (SignedInTo 4) (replay (World.next ordinarySettings) officeWorld slowTwins)
      (endState (World.next ordinarySettings) officeWorld slowTwins) := by
  apply run_replay officeWorld_signedIn
  unfold slowTwins
  simp only [replay, List.forall_mem_cons, List.not_mem_nil, false_imp_iff, implies_true, and_true]
  refine ⟨⟨by decide, ?_, ⟨by decide, rfl, rfl⟩, rfl⟩, ⟨by decide, ?_, ⟨by decide, ?_⟩, rfl⟩,
    ⟨by decide, ?_, trivial, rfl⟩, ⟨by decide, ?_, ⟨by decide, rfl, rfl⟩, rfl⟩, ⟨by decide, ?_, trivial, rfl⟩⟩
  · intro flight hflight
    have hmem : flight ∈ [twin 1 32] := hflight
    rw [List.mem_singleton.mp hmem]
    show 63 ≤ 32 + delay
    omega
  · intro flight hflight
    have hmem : flight ∈ [twin 1 32, firstTwin] := hflight
    cases List.mem_cons.mp hmem with
    | inl hsecond =>
      rw [hsecond]
      exact Nat.le_add_right 32 delay
    | inr hfirst =>
      rw [List.mem_singleton.mp hfirst]
      show 32 ≤ 1 + delay
      omega
  · exact Option.some_ne_none _
  · intro flight hflight
    have hmem : flight ∈ [firstTwin] := hflight
    rw [List.mem_singleton.mp hmem]
    show 32 ≤ 1 + delay
    omega
  · intro flight hflight
    have hmem : flight ∈ [twin 0 1] := hflight
    rw [List.mem_singleton.mp hmem]
    exact Nat.le_add_right 1 delay
  · intro flight hflight
    cases hflight

/-- However many tabs there are and however their refreshes overtake one another, none is taken for a theft, exactly
if two trips to the server and back fit in the time of grace. -/
theorem grace_is_two_trips (delay : Nat) :
    (∀ S userId tr w, BrowserRun S delay userId (SignedInTo userId) tr w →
      ∀ x ∈ tr, ∀ flight visit, x.label.event = .served flight visit → Welcomed x flight) ↔
    2 * delay ≤ rotationGraceSeconds := by
  constructor
  · intro hall
    by_contra hshort
    have hdelay : 31 ≤ delay := by
      unfold rotationGraceSeconds at hshort
      omega
    have hwelcomed := hall _ _ _ _ (slowTwins_run hdelay) _ List.mem_cons_self (twin 1 32) (visitAt 63) rfl
    obtain ⟨accessToken, setCookie, hmem⟩ := hwelcomed.token (by decide)
    have hrefused : ({ twin 1 32 with answer := some ⟨some accessToken, setCookie⟩ } : Flight) ∈
        [{ twin 1 32 with answer := some ⟨none, none⟩ }] := hmem
    rw [List.mem_singleton] at hrefused
    cases hrefused
  · intro hgrace S userId tr w hrun x hx flight visit hevent
    obtain ⟨⟨old, hold, _⟩, hsteps⟩ := hrun.step_of_mem hx
    obtain ⟨_, hcoherent⟩ := coherent_of_run hgrace hold
    exact welcomed_of_coherent hgrace hcoherent hsteps hevent

end NexaHR.Browser
