import NexaHR.Models.Platform

/-! # Capabilities

`services/authorization.py`: who holds which administrative capability.
-/

namespace NexaHR

open Foundations

set_option autoImplicit false

def defaultHrCapabilities : List Capability := [.manageUsers, .managePersonnel, .manageScoring]

/-- The user sees everybody in the list of personnel, and not only the people of his chains. -/
def seesAllPersonnel (role : UserRole) (capabilities : List Capability) : Bool :=
  role = .hr || capabilities.contains .managePersonnel

def capabilitiesOf (p : Platform) (userId : Nat) : List Capability :=
  (p.userCapabilities.rows.filter fun row => row.userId = userId).map UserCapability.capability

def hasCapability (p : Platform) (userId : Nat) (capability : Capability) : Bool :=
  p.userCapabilities.rows.any fun row => row.userId = userId && row.capability = capability

def grant (p : Platform) (userId : Nat) (grantedByUserId : Option Nat) (capability : Capability) :
    Platform :=
  { p with
    userCapabilities := p.userCapabilities.insert
      (fun id =>
        { id := id
          userId := userId
          capability := capability
          grantedByUserId := grantedByUserId })
      fun _ => rfl }

def grantAll (p : Platform) (userId : Nat) (grantedByUserId : Option Nat)
    (capabilities : List Capability) : Platform :=
  capabilities.foldl (fun p capability => grant p userId grantedByUserId capability) p

/-- The rows that satisfy `remove` go. -/
def revokeWhere (p : Platform) (remove : UserCapability → Bool) : Platform :=
  { p with userCapabilities := p.userCapabilities.filter fun row => !remove row }

def applyDefaultHrCapabilities (p : Platform) (userId : Nat) : Platform :=
  grantAll (revokeWhere p fun row => row.userId = userId) userId none defaultHrCapabilities

/-! ## Who holds what -/

section

variable {p q : Platform} {userId k : Nat} {capability : Capability}

theorem hasCapability_iff : hasCapability p k capability = true ↔
    ∃ row ∈ p.userCapabilities, row.userId = k ∧ row.capability = capability := by
  simp [hasCapability, Table.mem_def]

theorem hasCapability_congr (h : p.userCapabilities = q.userCapabilities) :
    hasCapability p k capability = hasCapability q k capability := by
  unfold hasCapability
  rw [h]

theorem mem_capabilitiesOf : capability ∈ capabilitiesOf p k ↔ hasCapability p k capability = true := by
  rw [hasCapability_iff]
  simp [capabilitiesOf, Table.mem_def, and_assoc]

theorem mem_grantAll {grantedBy : Option Nat} {capabilities : List Capability} {row : UserCapability}
    (h : row ∈ (grantAll p userId grantedBy capabilities).userCapabilities) :
    row ∈ p.userCapabilities ∨ row.userId = userId ∧ row.capability ∈ capabilities := by
  induction capabilities generalizing p with
  | nil => exact Or.inl h
  | cons c cs ih =>
    obtain hold | ⟨huser, hc⟩ := ih h
    · obtain hold | hnew := (Table.mem_insert _).mp hold
      · exact Or.inl hold
      · right
        rw [hnew]
        exact ⟨rfl, List.mem_cons_self⟩
    · exact Or.inr ⟨huser, List.mem_cons_of_mem _ hc⟩

theorem hasCapability_grant {grantedBy : Option Nat} {c : Capability} :
    hasCapability (grant p userId grantedBy c) k capability = true ↔
      hasCapability p k capability = true ∨ k = userId ∧ capability = c := by
  rw [hasCapability_iff, hasCapability_iff]
  constructor
  · rintro ⟨row, hrow, rfl, rfl⟩
    obtain hold | rfl := (Table.mem_insert _).mp hrow
    · exact Or.inl ⟨row, hold, rfl, rfl⟩
    · exact Or.inr ⟨rfl, rfl⟩
  · rintro (⟨row, hrow, hk, hc⟩ | ⟨rfl, rfl⟩)
    · exact ⟨row, (Table.mem_insert _).mpr (Or.inl hrow), hk, hc⟩
    · exact ⟨_, (Table.mem_insert _).mpr (Or.inr rfl), rfl, rfl⟩

/-- After a grant there is what was granted, and what there was before. -/
theorem hasCapability_grantAll {grantedBy : Option Nat} {capabilities : List Capability} :
    hasCapability (grantAll p userId grantedBy capabilities) k capability = true ↔
      hasCapability p k capability = true ∨ k = userId ∧ capability ∈ capabilities := by
  induction capabilities generalizing p with
  | nil => simp [grantAll]
  | cons c cs ih =>
    have hstep := ih (p := grant p userId grantedBy c)
    rw [hasCapability_grant] at hstep
    rw [show grantAll p userId grantedBy (c :: cs) = grantAll (grant p userId grantedBy c) userId
      grantedBy cs from rfl, hstep, List.mem_cons]
    tauto

theorem hasCapability_revokeWhere {remove : UserCapability → Bool} :
    hasCapability (revokeWhere p remove) k capability = true ↔
      ∃ row ∈ p.userCapabilities, remove row = false ∧ row.userId = k ∧ row.capability = capability := by
  rw [hasCapability_iff]
  constructor
  · rintro ⟨row, hrow, hk, hc⟩
    obtain ⟨hmem, hkept⟩ := Table.mem_filter.mp hrow
    exact ⟨row, hmem, by simpa using hkept, hk, hc⟩
  · rintro ⟨row, hmem, hkept, hk, hc⟩
    exact ⟨row, Table.mem_filter.mpr ⟨hmem, by simpa using hkept⟩, hk, hc⟩

/-- The account has the defaults and nothing else; every other account has what it had. -/
theorem hasCapability_applyDefault :
    hasCapability (applyDefaultHrCapabilities p userId) k capability = true ↔
      if k = userId then capability ∈ defaultHrCapabilities else hasCapability p k capability = true := by
  unfold applyDefaultHrCapabilities
  rw [hasCapability_grantAll, hasCapability_revokeWhere]
  by_cases hk : k = userId
  · subst hk
    rw [if_pos rfl]
    constructor
    · rintro (⟨row, -, hkept, hrow, -⟩ | ⟨-, hc⟩)
      · simp [hrow] at hkept
      · exact hc
    · exact fun hc => Or.inr ⟨rfl, hc⟩
  · rw [if_neg hk, hasCapability_iff]
    constructor
    · rintro (⟨row, hmem, -, hrow, hc⟩ | ⟨heq, -⟩)
      · exact ⟨row, hmem, hrow, hc⟩
      · exact absurd heq hk
    · rintro ⟨row, hmem, hrow, hc⟩
      exact Or.inl ⟨row, hmem, by simp [hrow, hk], hrow, hc⟩

end

end NexaHR
