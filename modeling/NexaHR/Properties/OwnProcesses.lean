import Mathlib.Data.Bool.AllAny
import NexaHR.Foundations.Paths
import NexaHR.Launcher.Ports

/-! # What the launcher kills, and the port it returns

A process is of the repository when its executable, its working directory or a path in its command line is the root
or lies inside it. `belongs_to` looks for the root's text instead.

* `mem_reclaimed_iff`: when `choose` kills, and what.
* `choose_port`: the port that is returned was the last one looked at, and was free.
* `launcher_kills_its_own`: no other process is killed as long as a text that mentions the root also names it.
-/

namespace NexaHR

open Foundations

set_option autoImplicit false

/-! ## Processes of the repository -/

/-- Paths as Linux reads them. -/
def posixPaths : PathReading Char where
  separates := (· = '/')
  fold := id
  up := (· = ['.', '.'])
  idle := fun name => name = [] || name = ['.']

def opensPath (c : Char) : Bool := c ∈ [' ', '\t', '"', '\'', '=']

def closesPath (c : Char) : Bool := c ∈ [' ', '\t', '"', '\'']

/-- A path in a command line, which is only a text. -/
def InCommandLine (cmdline path : List Char) : Prop :=
  ∃ before after, cmdline = before ++ path ++ after ∧ (∀ c, before.getLast? = some c → opensPath c = true) ∧
    ∀ c, after.head? = some c → closesPath c = true

def IsPathOf (o : Owner) (path : List Char) : Prop :=
  path = o.path.toList ∨ path = o.cwd.toList ∨ InCommandLine o.cmdline.toList path

/-- The root without a separator at its end. -/
def bareRoot (r : PathReading Char) (root : String) : List Char := root.toList.rdropWhile r.separates

/-- The process is one of the repository. -/
def OfRepository (r : PathReading Char) (root : String) (o : Owner) : Prop :=
  ∃ path, IsPathOf o path ∧ r.Within (bareRoot r root) path

/-- One of the process' paths begins with the root's text, and a name ends where it ends. -/
def NamesRoot (r : PathReading Char) (root : String) (o : Owner) : Prop :=
  ∃ path, IsPathOf o path ∧ r.Stands (bareRoot r root) path

theorem ofRepository_iff {r : PathReading Char} {root : String} {o : Owner} :
    OfRepository r root o ↔ NamesRoot r root o := by
  unfold OfRepository NamesRoot
  simp only [PathReading.within_iff_stands]

/-! ## What has been reported of a port -/

def answersOf (port : Int) (events : List PortEvent) : List Probe :=
  events.filterMap fun
    | .probed p answer => if p = port then some answer else none
    | .reclaimed _ => none

/-- The last look at the port found it free. -/
def ReportedFree (port : Int) (events : List PortEvent) : Prop :=
  ∃ answer, (answersOf port events).getLast? = some answer ∧ answer.free = true

theorem reportedFree_probed {port : Int} {answer : Probe} {events : List PortEvent} (h : answer.free = true) :
    ReportedFree port (events ++ [.probed port answer]) := by
  refine ⟨answer, ?_, h⟩
  unfold answersOf
  rw [List.filterMap_append]
  simp

section

variable {w : PortWorld} {host : String} {preferred : Int} {root : Option String} {span : Int} {o : Owner}

/-! ## What is done on the way -/

theorem mem_waitUntilFree (n : Nat) (events : List PortEvent) :
    .reclaimed o ∈ (waitUntilFree w host preferred n events).2 ↔ .reclaimed o ∈ events := by
  induction n generalizing events with
  | zero => simp [waitUntilFree]
  | succ n ih =>
    unfold waitUntilFree
    dsimp only
    split
    · simp
    · rw [ih]
      simp

theorem mem_retake (events : List PortEvent) :
    .reclaimed o ∈ (retake w host preferred events).2 ↔ .reclaimed o ∈ events := by
  unfold retake
  dsimp only
  split
  · rw [List.mem_append, mem_waitUntilFree]
    simp
  · rw [mem_waitUntilFree]

theorem retake_free {events : List PortEvent} (h : (retake w host preferred events).1 = true) :
    ReportedFree preferred (retake w host preferred events).2 := by
  unfold retake at h ⊢
  dsimp only at h ⊢
  split at h
  · rename_i hwaited
    rw [if_pos hwaited]
    exact reportedFree_probed h
  · rename_i hwaited
    exact absurd h hwaited

theorem mem_trial (choice : Choice) (ports : List Int) (events : List PortEvent) :
    .reclaimed o ∈ (trial w host span choice ports events).events ↔ .reclaimed o ∈ events := by
  induction ports generalizing events with
  | nil => rfl
  | cons port ports ih =>
    unfold trial
    dsimp only
    split
    · simp
    · rw [ih]
      simp

theorem trial_free {choice : Choice} {ports : List Int} {events : List PortEvent} {port : Int}
    (hnone : choice.port = none) (h : (trial w host span choice ports events).choice.port = some port) :
    ReportedFree port (trial w host span choice ports events).events := by
  induction ports generalizing events with
  | nil =>
    unfold trial at h
    rw [hnone] at h
    cases h
  | cons candidate ports ih =>
    unfold trial at h ⊢
    dsimp only at h ⊢
    split at h
    · rename_i hfree
      rw [if_pos hfree]
      cases h
      exact reportedFree_probed hfree
    · rename_i hfree
      rw [if_neg hfree]
      exact ih h

theorem mem_takeOver {found : Owner} (choice : Choice) (events : List PortEvent) :
    .reclaimed o ∈ (takeOver w host found span choice events).events ↔ .reclaimed o ∈ events ∨ o = found := by
  unfold takeOver
  dsimp only
  split
  · rw [mem_retake]
    simp
  · rw [mem_trial, mem_retake]
    simp

theorem takeOver_free {found : Owner} {choice : Choice} {events : List PortEvent} {port : Int}
    (hnone : choice.port = none) (h : (takeOver w host found span choice events).choice.port = some port) :
    ReportedFree port (takeOver w host found span choice events).events := by
  unfold takeOver at h ⊢
  dsimp only at h ⊢
  split at h
  · rename_i hretaken
    rw [if_pos hretaken]
    cases h
    exact retake_free hretaken
  · rename_i hretaken
    rw [if_neg hretaken]
    exact trial_free hnone h

/-- What `choose` finds at first. -/
abbrev firstLook (w : PortWorld) (host : String) (preferred : Int) : Probe := w.prober [] preferred host

abbrev foundOwner (w : PortWorld) (host : String) (preferred : Int) : Option Owner :=
  w.ownerOf [.probed preferred (firstLook w host preferred)] preferred

/-- The owner that `choose` takes for an earlier run. -/
def TakesOver (w : PortWorld) (host : String) (preferred : Int) (root : Option String) (o : Owner) : Prop :=
  (firstLook w host preferred).verdict = .inUse ∧ foundOwner w host preferred = some o ∧
    ∃ text, root = some text ∧ Mentions w.lower o text

/-- The ways in which `choose` goes on after its first look. -/
theorem choose_cases :
    ((firstLook w host preferred).free = true ∧ (choose w host preferred root span).choice.port = some preferred ∧
        (choose w host preferred root span).events = [.probed preferred (firstLook w host preferred)] ∧
        ∀ o, ¬TakesOver w host preferred root o) ∨
      (∃ o choice, TakesOver w host preferred root o ∧ choice.port = none ∧
        choose w host preferred root span =
          takeOver w host o span choice [.probed preferred (firstLook w host preferred)]) ∨
      ∃ choice, (∀ o, ¬TakesOver w host preferred root o) ∧ choice.port = none ∧
        choose w host preferred root span = trial w host span choice (laterPorts preferred span)
          [.probed preferred (firstLook w host preferred)] := by
  unfold choose
  dsimp only
  cases hverdict : (w.prober [] preferred host).verdict with
  | free =>
    have hfree : (w.prober [] preferred host).free = true := by simp [Probe.free, hverdict]
    rw [if_pos hfree]
    refine Or.inl ⟨hfree, rfl, rfl, fun o ho => ?_⟩
    cases hverdict.symm.trans ho.1
  | reserved =>
    refine Or.inr (Or.inr ⟨_, fun o ho => ?_, ?_, if_neg ?_⟩)
    · cases hverdict.symm.trans ho.1
    · rfl
    · simp [Probe.free, hverdict]
  | error =>
    refine Or.inr (Or.inr ⟨_, fun o ho => ?_, ?_, if_neg ?_⟩)
    · cases hverdict.symm.trans ho.1
    · rfl
    · simp [Probe.free, hverdict]
  | inUse =>
    rw [if_neg (by simp [Probe.free, hverdict])]
    dsimp only
    cases howner : w.ownerOf [.probed preferred (w.prober [] preferred host)] preferred with
    | none =>
      refine Or.inr (Or.inr ⟨_, fun o ho => ?_, ?_, rfl⟩)
      · cases howner.symm.trans ho.2.1
      · rfl
    | some found =>
      cases root with
      | none =>
        refine Or.inr (Or.inr ⟨_, fun o ho => ?_, ?_, rfl⟩)
        · obtain ⟨text, htext, _⟩ := ho.2.2
          cases htext
        · rfl
      | some text =>
        dsimp only
        by_cases hours : Mentions w.lower found text
        · refine Or.inr (Or.inl ⟨found, _, ⟨hverdict, howner, text, rfl, hours⟩, ?_, if_pos (decide_eq_true hours)⟩)
          rfl
        · refine Or.inr (Or.inr ⟨_, fun o ho => ?_, ?_, if_neg ?_⟩)
          · cases howner.symm.trans ho.2.1
            obtain ⟨same, hsame, hmentions⟩ := ho.2.2
            cases hsame
            exact hours hmentions
          · rfl
          · unfold belongsTo
            rw [decide_eq_true_iff]
            exact hours

/-- A process is killed when it holds the port and its texts mention the root. -/
theorem mem_reclaimed_iff :
    .reclaimed o ∈ (choose w host preferred root span).events ↔ TakesOver w host preferred root o := by
  obtain ⟨_, _, hevents, hnot⟩ | ⟨found, choice, htakes, _, hchoose⟩ | ⟨choice, hnot, _, hchoose⟩ :=
    @choose_cases w host preferred root span
  · rw [hevents]
    simp [hnot o]
  · rw [hchoose, mem_takeOver]
    constructor
    · intro h
      cases h with
      | inl h => simp at h
      | inr h => exact h ▸ htakes
    · intro h
      exact Or.inr (Option.some.inj (h.2.1.symm.trans htakes.2.1))
  · rw [hchoose, mem_trial]
    simp [hnot o]

/-- The port that is returned was free when it was last looked at. -/
theorem choose_free {port : Int} (h : (choose w host preferred root span).choice.port = some port) :
    ReportedFree port (choose w host preferred root span).events := by
  obtain ⟨hfree, hport, hevents, _⟩ | ⟨found, choice, _, hnone, hchoose⟩ | ⟨choice, _, hnone, hchoose⟩ :=
    @choose_cases w host preferred root span
  · rw [hport] at h
    cases h
    rw [hevents]
    exact @reportedFree_probed preferred _ [] hfree
  · rw [hchoose] at h ⊢
    exact takeOver_free hnone h
  · rw [hchoose] at h ⊢
    exact trial_free hnone h

end

/-! ## The launcher kills only its own processes -/

/-- Only processes of the repository are killed, and the port that is returned was free. -/
def KillsItsOwn (r : PathReading Char) (w : PortWorld) (host : String) (preferred : Int) (root : Option String)
    (span : Int) : Prop :=
  (∀ o, .reclaimed o ∈ (choose w host preferred root span).events →
      ∃ text, root = some text ∧ OfRepository r text o) ∧
    ∀ port, (choose w host preferred root span).choice.port = some port →
      ReportedFree port (choose w host preferred root span).events

/-- A launcher kills nothing but processes of its repository just where no text mentions the root without naming it. -/
theorem launcher_kills_its_own (r : PathReading Char) (w : PortWorld) (host : String) (preferred : Int)
    (root : Option String) (span : Int) :
    KillsItsOwn r w host preferred root span ↔
      ((firstLook w host preferred).verdict = .inUse → ∀ o, foundOwner w host preferred = some o →
        ∀ text, root = some text → Mentions w.lower o text → NamesRoot r text o) := by
  constructor
  · intro h hverdict o howner text htext hmentions
    have hkilled := (@mem_reclaimed_iff w host preferred root span o).mpr ⟨hverdict, howner, text, htext, hmentions⟩
    obtain ⟨same, hsame, hof⟩ := h.1 o hkilled
    cases htext.symm.trans hsame
    exact ofRepository_iff.mp hof
  · intro h
    refine ⟨fun o ho => ?_, fun port => choose_free⟩
    obtain ⟨hverdict, howner, text, htext, hmentions⟩ := mem_reclaimed_iff.mp ho
    exact ⟨text, htext, ofRepository_iff.mpr (h hverdict o howner text htext hmentions)⟩

/-- A process of the folder beside the repository, which a launcher on Linux meets at its port. -/
def neighbour : Owner :=
  { pid := 4242, name := "python", path := "/usr/bin/python3", cmdline := "python3 -m http.server 8000"
    cwd := "/home/u/nexahr-old" }

/-- The neighbour holds the port until it is killed. -/
def neighbourWorld : PortWorld where
  prober := fun events port _ => ⟨port, if .reclaimed neighbour ∈ events ∨ port ≠ 8000 then .free else .inUse, ""⟩
  probe := fun events port _ => ⟨port, if .reclaimed neighbour ∈ events ∨ port ≠ 8000 then .free else .inUse, ""⟩
  ownerOf := fun _ _ => some neighbour
  rounds := fun _ => 32
  excludedRanges := []
  windows := false
  lower := List.map Char.toLower

theorem not_ofRepository_neighbour : ¬OfRepository posixPaths "/home/u/nexahr" neighbour := by
  rw [ofRepository_iff]
  intro h
  obtain ⟨path, hpath, head, tail, rfl, hhead, htail⟩ := h
  have hroot : (bareRoot posixPaths "/home/u/nexahr").length = 14 := by decide
  have hlength : head.length = 14 := by
    rw [← hroot]
    simpa using congrArg List.length hhead
  have hparts : head = (head ++ tail).take 14 ∧ tail = (head ++ tail).drop 14 := by
    rw [← hlength, List.take_left, List.drop_left]
    exact ⟨rfl, rfl⟩
  obtain hexe | hcwd | ⟨before, after, hcmdline, _⟩ := hpath
  · -- the executable begins with another folder
    rw [hparts.1, hexe] at hhead
    revert hhead
    decide
  · -- the working directory goes on after the root's text
    have hold : tail = ['-', 'o', 'l', 'd'] := by
      rw [hparts.2, hcwd]
      decide
    rw [hold] at htail
    obtain hnil | ⟨c, inner, hinner, hc, _⟩ := htail
    · cases hnil
    · cases hinner
      revert hc
      decide
  · -- no path stands in the command line
    have hslash : none ∈ head.map posixPaths.spelt := by
      rw [hhead]
      decide
    obtain ⟨c, hc, hnone⟩ := List.mem_map.mp hslash
    have hmem : c ∈ neighbour.cmdline.toList := by
      rw [hcmdline]
      simp [hc]
    have hall : ∀ d ∈ neighbour.cmdline.toList, posixPaths.spelt d ≠ none := List.all_iff_forall_prop.mp (by decide)
    exact hall c hmem hnone

theorem neighbour_is_killed :
    ¬KillsItsOwn posixPaths neighbourWorld "0.0.0.0" 8000 (some "/home/u/nexahr") 20 := by
  intro h
  have hkilled := (@mem_reclaimed_iff neighbourWorld "0.0.0.0" 8000 (some "/home/u/nexahr") 20 neighbour).mpr
    ⟨by decide, rfl, "/home/u/nexahr", rfl, by decide⟩
  obtain ⟨text, htext, hof⟩ := h.1 neighbour hkilled
  cases htext
  exact not_ofRepository_neighbour hof

/-! ## The first free port, and one kill at most

Whatever the outside answers, and however its answers change on the way. -/

/-- The last look at the port found it taken. -/
def ReportedTaken (port : Int) (events : List PortEvent) : Prop :=
  ∃ answer, (answersOf port events).getLast? = some answer ∧ answer.free = false

/-- The port is the first of a row that was free when it was last looked at. Those before it were looked at and found
taken, and so were all of them if there is no port. -/
inductive FirstFree (events : List PortEvent) : List Int → Option Int → Prop
  | exhausted : FirstFree events [] none
  | here {port : Int} {ports : List Int} : ReportedFree port events → FirstFree events (port :: ports) (some port)
  | later {port : Int} {ports : List Int} {found : Option Int} :
    ReportedTaken port events → FirstFree events ports found → FirstFree events (port :: ports) found

def killsOf (events : List PortEvent) : List Owner :=
  events.filterMap fun
    | .probed _ _ => none
    | .reclaimed o => some o

@[simp] theorem answersOf_probed (port other : Int) (answer : Probe) (events : List PortEvent) :
    answersOf port (events ++ [.probed other answer]) =
      answersOf port events ++ if other = port then [answer] else [] := by
  unfold answersOf
  rw [List.filterMap_append]
  by_cases h : other = port <;> simp [h]

@[simp] theorem killsOf_probed (port : Int) (answer : Probe) (events : List PortEvent) :
    killsOf (events ++ [.probed port answer]) = killsOf events := by
  simp [killsOf]

@[simp] theorem killsOf_reclaimed (o : Owner) (events : List PortEvent) :
    killsOf (events ++ [.reclaimed o]) = killsOf events ++ [o] := by
  simp [killsOf]

theorem reportedTaken_probed {port : Int} {answer : Probe} {events : List PortEvent} (h : answer.free = false) :
    ReportedTaken port (events ++ [.probed port answer]) :=
  ⟨answer, by simp, h⟩

theorem laterPorts_eq (preferred span : Int) :
    laterPorts preferred span = (List.range span.toNat).map fun i : Nat => preferred + 1 + (i : Int) := by
  simp only [laterPorts, List.bind_eq_flatMap, List.pure_def, ← List.map_eq_flatMap, List.map_map]
  rfl

theorem mem_laterPorts {preferred span port : Int} (h : port ∈ laterPorts preferred span) :
    preferred < port ∧ port ≤ preferred + span := by
  rw [laterPorts_eq, List.mem_map] at h
  obtain ⟨i, hi, rfl⟩ := h
  rw [List.mem_range] at hi
  omega

theorem nodup_laterPorts (preferred span : Int) : (laterPorts preferred span).Nodup := by
  rw [laterPorts_eq]
  refine List.Pairwise.map _ (fun i j hne heq => ?_) List.nodup_range
  omega

section

variable {w : PortWorld} {host : String} {preferred : Int} {span : Int}

theorem waitUntilFree_kills (n : Nat) (events : List PortEvent) :
    killsOf (waitUntilFree w host preferred n events).2 = killsOf events := by
  induction n generalizing events with
  | zero => simp [waitUntilFree]
  | succ n ih =>
    unfold waitUntilFree
    dsimp only
    split
    · rw [killsOf_probed]
    · rw [ih, killsOf_probed]

/-- A port that did not come free was found taken. -/
theorem waitUntilFree_taken {n : Nat} {events : List PortEvent}
    (h : (waitUntilFree w host preferred n events).1 = false) :
    ReportedTaken preferred (waitUntilFree w host preferred n events).2 := by
  induction n generalizing events with
  | zero => exact reportedTaken_probed h
  | succ n ih =>
    unfold waitUntilFree at h ⊢
    dsimp only at h ⊢
    split at h
    · cases h
    · next hfree =>
      rw [if_neg hfree]
      exact ih h

theorem retake_kills (events : List PortEvent) :
    killsOf (retake w host preferred events).2 = killsOf events := by
  unfold retake
  dsimp only
  split
  · rw [killsOf_probed, waitUntilFree_kills]
  · rw [waitUntilFree_kills]

theorem retake_taken {events : List PortEvent} (h : (retake w host preferred events).1 = false) :
    ReportedTaken preferred (retake w host preferred events).2 := by
  unfold retake at h ⊢
  dsimp only at h ⊢
  split at h
  · next hwaited =>
    rw [if_pos hwaited]
    exact reportedTaken_probed h
  · next hwaited =>
    rw [if_neg hwaited]
    exact waitUntilFree_taken h

theorem trial_kills (choice : Choice) (ports : List Int) (events : List PortEvent) :
    killsOf (trial w host span choice ports events).events = killsOf events := by
  induction ports generalizing events with
  | nil => rfl
  | cons port ports ih =>
    unfold trial
    dsimp only
    split
    · rw [killsOf_probed]
    · rw [ih, killsOf_probed]

/-- The trial looks at its own ports only. -/
theorem trial_answers {port : Int} {ports : List Int} (choice : Choice) (events : List PortEvent)
    (h : port ∉ ports) : answersOf port (trial w host span choice ports events).events = answersOf port events := by
  induction ports generalizing events with
  | nil => rfl
  | cons candidate ports ih =>
    rw [List.mem_cons, not_or] at h
    have hother : candidate ≠ port := fun heq => h.1 heq.symm
    unfold trial
    dsimp only
    split
    · simp [hother]
    · rw [ih _ h.2]
      simp [hother]

theorem trial_firstFree {ports : List Int} {choice : Choice} (events : List PortEvent) (hports : ports.Nodup)
    (hnone : choice.port = none) :
    FirstFree (trial w host span choice ports events).events ports
      (trial w host span choice ports events).choice.port := by
  induction ports generalizing events with
  | nil =>
    unfold trial
    rw [hnone]
    exact .exhausted
  | cons port ports ih =>
    rw [List.nodup_cons] at hports
    unfold trial
    dsimp only
    split
    · next hfree => exact .here (reportedFree_probed hfree)
    · next hfree =>
      apply FirstFree.later
      · -- later looks are at other ports
        unfold ReportedTaken
        rw [trial_answers _ _ hports.1]
        exact reportedTaken_probed (by simpa using hfree)
      · exact ih _ hports.2

/-- The ports behind a preferred port that was found taken. -/
theorem later_firstFree {choice : Choice} {events : List PortEvent} (htaken : ReportedTaken preferred events)
    (hnone : choice.port = none) :
    FirstFree (trial w host span choice (laterPorts preferred span) events).events
      (preferred :: laterPorts preferred span)
      (trial w host span choice (laterPorts preferred span) events).choice.port := by
  have hself : preferred ∉ laterPorts preferred span := by
    intro h
    have hlt := (mem_laterPorts h).1
    omega
  apply FirstFree.later
  · unfold ReportedTaken
    rw [trial_answers _ _ hself]
    exact htaken
  · exact trial_firstFree events (nodup_laterPorts preferred span) hnone

theorem takeOver_kills (o : Owner) (choice : Choice) (events : List PortEvent) :
    killsOf (takeOver w host o span choice events).events = killsOf events ++ [o] := by
  unfold takeOver
  dsimp only
  split
  · rw [retake_kills, killsOf_reclaimed]
  · rw [trial_kills, retake_kills, killsOf_reclaimed]

theorem takeOver_firstFree {o : Owner} {choice : Choice} {events : List PortEvent} (hnone : choice.port = none) :
    FirstFree (takeOver w host o span choice events).events (choice.preferred :: laterPorts choice.preferred span)
      (takeOver w host o span choice events).choice.port := by
  unfold takeOver
  dsimp only
  split
  · next hretaken => exact .here (retake_free hretaken)
  · next hretaken => exact later_firstFree (retake_taken (by simpa using hretaken)) hnone

/-- Where `choose` goes on when its first look finds the port taken. -/
theorem choose_rest (root : Option String) (h : (firstLook w host preferred).free = false) :
    ∃ choice : Choice, choice.port = none ∧ choice.preferred = preferred ∧
      ((∃ o, choose w host preferred root span =
          takeOver w host o span choice [.probed preferred (firstLook w host preferred)]) ∨
        choose w host preferred root span = trial w host span choice (laterPorts preferred span)
          [.probed preferred (firstLook w host preferred)]) := by
  unfold choose
  dsimp only
  rw [if_neg (by simp [h])]
  split
  · split
    · split
      · exact ⟨_, rfl, rfl, Or.inl ⟨_, rfl⟩⟩
      · exact ⟨_, by rfl, by rfl, Or.inr rfl⟩
    · exact ⟨_, by rfl, by rfl, Or.inr rfl⟩
  · exact ⟨_, by rfl, by rfl, Or.inr rfl⟩
  · exact ⟨_, by rfl, by rfl, Or.inr rfl⟩

/-- The launcher takes the first port of its row that is free at its last look, and kills one process at most. -/
theorem choose_first_free (w : PortWorld) (host : String) (preferred : Int) (root : Option String) (span : Int) :
    FirstFree (choose w host preferred root span).events (preferred :: laterPorts preferred span)
        (choose w host preferred root span).choice.port ∧
      (killsOf (choose w host preferred root span).events).length ≤ 1 := by
  cases hfirst : (firstLook w host preferred).free with
  | true =>
    have hchoose : choose w host preferred root span =
        ⟨{ port := some preferred, preferred := preferred, firstVerdict := (firstLook w host preferred).verdict },
          [.probed preferred (firstLook w host preferred)]⟩ := if_pos hfirst
    rw [hchoose]
    exact ⟨.here (@reportedFree_probed preferred _ [] hfirst), Nat.zero_le 1⟩
  | false =>
    have htaken := @reportedTaken_probed preferred _ [] hfirst
    obtain ⟨choice, hnone, rfl, ⟨o, hchoose⟩ | hchoose⟩ := @choose_rest w host preferred span root hfirst
    · rw [hchoose]
      refine ⟨takeOver_firstFree hnone, ?_⟩
      rw [takeOver_kills]
      exact Nat.le_refl 1
    · rw [hchoose]
      refine ⟨later_firstFree htaken hnone, ?_⟩
      rw [trial_kills]
      exact Nat.zero_le 1

end

end NexaHR
