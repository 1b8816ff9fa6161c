import ScoutEngine.Api.KeyTrust

/-!
# Admins that revoke each other

No static key is set, so only the keys of the table let anybody in.

* `AuthState.LiveAdmin`, `AuthState.HasAdmin`: the admin keys that are not revoked.
* `AuthState.OthersRevoked`: a request revokes another key than its caller's.
* `AuthState.Timely`: the key of the caller is not revoked when the revocation is committed;
  **`admin_remains`**: if all are timely, an admin key remains.
* `locked_out`: two admins revoke each other's keys.
-/

set_option autoImplicit false

namespace ScoutEngine

open Transition

namespace AuthState

/-- A key that is not revoked. -/
def Live (s : AuthState) (id : ℕ) : Prop := ∃ row ∈ s.keys, row.id = id ∧ row.revoked = false

/-- An admin key that is not revoked. -/
def LiveAdmin (s : AuthState) (id : ℕ) : Prop :=
  ∃ row ∈ s.keys, row.id = id ∧ row.isAdmin = true ∧ row.revoked = false

/-- Somebody can still make invites. -/
def HasAdmin (s : AuthState) : Prop := ∃ id, s.LiveAdmin id

/-- Nobody revokes the own key, and nobody but an admin revokes one. -/
def OthersRevoked (s : AuthState) : Prop :=
  ∀ k c id, s.calls k = some c → c.phase = .revoking id → c.isAdmin = true ∧ c.keyId ≠ some id

/-- **An admin key is revoked for a caller whose own key is not revoked** when that is committed. -/
def Timely (s : AuthState) (a : AuthAct) : Prop :=
  ∀ k c id, a = .revokeKey k → s.calls k = some c → c.phase = .revoking id → s.LiveAdmin id →
    ∀ own, c.keyId = some own → s.Live own

end AuthState

section Lockout

variable {cfg : AuthConfig} {s s' : AuthState} {a : AuthAct} {k : ℕ} {c c' : Exchange} {id id' : ℕ}

/-! ## The guard -/

theorem Exchange.authenticate_not_revoking (cfg : AuthConfig) (r : HttpRequest) (id : ℕ) :
    (authenticate cfg r).phase ≠ .revoking id := by
  unfold authenticate
  split
  · simp
  · split_ifs
    · simp
    · split <;> simp

namespace AuthState

theorem OthersRevoked.init : OthersRevoked {} := by
  intro k c id hk
  cases hk

/-- A request goes on that is not about to revoke. -/
theorem OthersRevoked.put (h : s.OthersRevoked) (hcalls : s'.calls = s.calls)
    (hnot : ∀ id, c.phase ≠ .revoking id) : (s'.put k c).OthersRevoked := by
  intro j c₁ id hj hp
  rcases put_cases hj with ⟨-, rfl⟩ | ⟨-, hj⟩
  · exact absurd hp (hnot id)
  · exact h j c₁ id (hcalls ▸ hj) hp

/-- **The guard is kept.** -/
theorem OthersRevoked.move (h : s.OthersRevoked) (hm : s.Moved cfg a s') : s'.OthersRevoked := by
  cases hm with
  | arrive =>
    refine h.put rfl fun id => ?_
    unfold Exchange.enter
    split_ifs
    · simp
    · simp
    · exact Exchange.authenticate_not_revoking cfg _ id
  | @goOn _ k c c' _ hk _ _ _ hcaller _ _ hother =>
    intro j c₁ id hj hp
    rcases put_cases hj with ⟨-, rfl⟩ | ⟨-, hj⟩
    · rw [Exchange.isAdmin, Exchange.keyId, hcaller]
      exact hother id hp
    · exact h j c₁ id hj hp
  | closedDoor => exact h.put rfl (Exchange.authenticate_not_revoking cfg _)
  | openDoor | authorize => exact h.put rfl fun id => by simp [Exchange.authorize]
  | selectInvite => exact h.put rfl fun id => by simp
  | createInvite | release | register | revoke =>
    exact h.put rfl fun id => by simp [Exchange.answer]
  | createAdminKey => exact h

theorem OthersRevoked.of_run {h : List (AuthState × AuthAct)} (hr : (authService cfg).Run h s) :
    s.OthersRevoked :=
  hr.always .init fun _ _ _ ho hs => ho.move (step_moved hs)

/-! ## One action -/

/-- The revocation of another key. -/
theorem LiveAdmin.revoke (h : s.LiveAdmin id) (hne : id ≠ id') : (s.revoke id').LiveAdmin id := by
  obtain ⟨row, hrow, rfl, hadmin, hlive⟩ := h
  have hsame : row.revoke id' = row := if_neg hne
  exact ⟨row, List.mem_map.mpr ⟨row, hrow, hsame⟩, rfl, hadmin, hlive⟩

theorem LiveAdmin.of_subset (h : s.LiveAdmin id) (hs : ∀ row ∈ s.keys, row ∈ s'.keys) :
    s'.LiveAdmin id := by
  obtain ⟨row, hrow, h⟩ := h
  exact ⟨row, hs row hrow, h⟩

end AuthState

/-- Without a static key an admin was admitted for an admin key. -/
theorem AuthInv.own_key (h : AuthInv cfg s) (hstatic : cfg.apiKey = "") (hk : s.calls k = some c)
    (hadmin : c.isAdmin = true) : ∃ own, c.keyId = some own ∧
      ∃ row ∈ s.keys, row.id = own ∧ row.isAdmin = true := by
  have hadmitted := h.admitted k c hk
  unfold Exchange.isAdmin at hadmin
  unfold Exchange.keyId
  cases hcaller : c.caller with
  | none => simp [hcaller] at hadmin
  | some caller =>
    cases caller with
    | anonymous => simp [hcaller, Caller.isAdmin] at hadmin
    | legacy => exact absurd hstatic (hadmitted.1 hcaller).1
    | key own isAdmin =>
      obtain ⟨token, -, row, hrow, hid, -, hrowAdmin⟩ := hadmitted.2 own isAdmin hcaller
      have hisAdmin : isAdmin = true := by simpa [hcaller, Caller.isAdmin] using hadmin
      exact ⟨own, rfl, row, hrow, hid, hrowAdmin.trans hisAdmin⟩

theorem AuthInv.liveAdmin (h : AuthInv cfg s) {row : ApiKey} (hrow : row ∈ s.keys)
    (hadmin : row.isAdmin = true) (hlive : s.Live row.id) : s.LiveAdmin row.id := by
  obtain ⟨row', hrow', hid, hrevoked⟩ := hlive
  obtain rfl := List.inj_on_of_nodup_map h.keyIds hrow' hrow hid
  exact ⟨row', hrow', rfl, hadmin, hrevoked⟩

/-- **An admin key remains**: if an admin key is revoked, that of the caller is left. -/
theorem AuthState.HasAdmin.move (h : s.HasAdmin) (hstatic : cfg.apiKey = "") (hinv : AuthInv cfg s)
    (hothers : s.OthersRevoked) (htimely : s.Timely a) (hm : s.Moved cfg a s') : s'.HasAdmin := by
  obtain ⟨admin, hlive⟩ := h
  cases hm with
  | @revoke k id c hk hp =>
    by_cases htarget : s.LiveAdmin id
    · obtain ⟨hadmin, hother⟩ := hothers k c id hk hp
      obtain ⟨own, hown, row, hrow, rfl, hrowAdmin⟩ := hinv.own_key hstatic hk hadmin
      have hne : row.id ≠ id := by
        rintro rfl
        exact hother hown
      have hcaller := hinv.liveAdmin hrow hrowAdmin (htimely k c id rfl hk hp htarget _ hown)
      exact ⟨row.id, hcaller.revoke hne⟩
    · have hne : admin ≠ id := by
        rintro rfl
        exact htarget hlive
      exact ⟨admin, hlive.revoke hne⟩
  | register | createAdminKey =>
    exact ⟨admin, hlive.of_subset fun row hrow => List.mem_append_left _ hrow⟩
  | _ => exact ⟨admin, hlive⟩

/-! ## Whole runs -/

/-- **Main result.** -/
theorem admin_remains {h₀ h : List (AuthState × AuthAct)} {s₀ : AuthState}
    (hstatic : cfg.apiKey = "") (hr₀ : (authService cfg).Run h₀ s₀) (hadmin : s₀.HasAdmin)
    (hr : (authService cfg).Run (h ++ h₀) s) (htimely : ∀ e ∈ h, e.1.Timely e.2) : s.HasAdmin := by
  have hstart : AuthInv cfg s₀ ∧ s₀.OthersRevoked ∧ s₀.HasAdmin :=
    ⟨AuthInv.of_run hr₀, .of_run hr₀, hadmin⟩
  have hend : AuthInv cfg s ∧ s.OthersRevoked ∧ s.HasAdmin := by
    refine hr₀.from_state (P := fun t => AuthInv cfg t ∧ t.OthersRevoked ∧ t.HasAdmin) hr hstart ?_
      htimely
    rintro t a t' ⟨hinv, hothers, hhas⟩ ht hs
    have hm := AuthState.step_moved hs
    exact ⟨hinv.move hm, hothers.move hm, hhas.move hstatic hinv hothers ht hm⟩
  exact hend.2.2

end Lockout

/-! ## Two admins -/

section Example

/-- No static key; texts are their own hashes. -/
def twoAdmins : AuthConfig where
  hashKey := fun text => text
  uuid := fun text => if text = "1" then some 1 else if text = "2" then some 2 else none
  urlPath := rebuiltPath

/-- The keys of the two. -/
def annAndBob : AuthState where
  keys := [{ id := 1, keyHash := "ann", label := "ann", isAdmin := true },
    { id := 2, keyHash := "bob", label := "bob", isAdmin := true }]

theorem annAndBob_run : ∃ h, (authService twoAdmins).Run h annAndBob := by
  have he : (authService twoAdmins).exec
      [.createAdminKey "ann" 1 "ann", .createAdminKey "bob" 2 "bob"] [] {} =
      some (_, annAndBob) := rfl
  exact ⟨_, System.run_exec .init he⟩

theorem annAndBob_hasAdmin : annAndBob.HasAdmin :=
  ⟨1, _, List.mem_cons_self, rfl, rfl, rfl⟩

/-- Ann is let in, and Bob's key is found. -/
def findBob : List AuthAct :=
  [.arrive 0 { endpoint := .revokeKey "2", authorization := some "Bearer ann" },
    .count 0, .lookUp 0, .findKey 0]

theorem findBob_quiet {h : List (AuthState × AuthAct)} {s : AuthState}
    (he : (authService twoAdmins).exec findBob [] annAndBob = some (h, s)) :
    ∀ e ∈ h, e.1.Timely e.2 := by
  intro e hmem k c id hk
  have hacts : e.2 ∈ h.map Prod.snd := List.mem_map_of_mem hmem
  rw [System.exec_actions he, hk] at hacts
  simp [findBob] at hacts

theorem admin_remains_ann : ∃ h₀ h s, (authService twoAdmins).Run h₀ annAndBob ∧
    (authService twoAdmins).Run (h ++ h₀) s ∧
    s.keys.map (fun row => (row.id, row.revoked)) = [(1, false), (2, true)] ∧ s.HasAdmin := by
  obtain ⟨h₀, hr₀⟩ := annAndBob_run
  obtain ⟨h, s, c, s', he, hc, hown, hkeys, hs, hend⟩ : ∃ h s c s',
      (authService twoAdmins).exec findBob [] annAndBob = some (h, s) ∧
      s.calls 0 = some c ∧ c.keyId = some 1 ∧ s.keys = annAndBob.keys ∧
      (authService twoAdmins).step s (.revokeKey 0) = some s' ∧
      s'.keys.map (fun row => (row.id, row.revoked)) = [(1, false), (2, true)] :=
    ⟨_, _, _, _, rfl, rfl, rfl, rfl, rfl, rfl⟩
  have hr : (authService twoAdmins).Run (((s, .revokeKey 0) :: h) ++ h₀) s' := (hr₀.exec he).step hs
  refine ⟨h₀, _, s', hr₀, hr, hend, admin_remains rfl hr₀ annAndBob_hasAdmin hr ?_⟩
  refine List.forall_mem_cons.mpr ⟨?_, findBob_quiet he⟩
  intro k c' id hk hc' _ _ own hown'
  obtain rfl := AuthAct.revokeKey.inj hk
  obtain rfl := Option.some.inj (hc.symm.trans hc')
  obtain rfl := Option.some.inj (hown.symm.trans hown')
  rw [AuthState.Live, hkeys]
  exact ⟨_, List.mem_cons_self, rfl, rfl⟩

/-- Both are let in before the key of either is revoked. -/
def revokeBoth : List AuthAct :=
  [.arrive 0 { endpoint := .revokeKey "2", authorization := some "Bearer ann" },
    .arrive 1 { endpoint := .revokeKey "1", authorization := some "Bearer bob" },
    .count 0, .lookUp 0, .count 1, .lookUp 1, .findKey 0, .revokeKey 0, .findKey 1, .revokeKey 1]

/-- **Two admins revoke each other's keys**, and none is left. -/
theorem locked_out : twoAdmins.apiKey = "" ∧ annAndBob.HasAdmin ∧ ∃ h₀ h s,
    (authService twoAdmins).Run h₀ annAndBob ∧ (authService twoAdmins).Run (h ++ h₀) s ∧
    ¬ s.HasAdmin := by
  obtain ⟨h₀, hr₀⟩ := annAndBob_run
  obtain ⟨h, s, he, hend⟩ : ∃ h s,
      (authService twoAdmins).exec revokeBoth [] annAndBob = some (h, s) ∧
      s.keys.map ApiKey.revoked = [true, true] := ⟨_, _, rfl, rfl⟩
  refine ⟨rfl, annAndBob_hasAdmin, h₀, h, s, hr₀, hr₀.exec he, ?_⟩
  rintro ⟨id, row, hrow, -, -, hlive⟩
  have hmem : row.revoked ∈ s.keys.map ApiKey.revoked := List.mem_map_of_mem hrow
  rw [hend, hlive] at hmem
  simp at hmem

end Example

end ScoutEngine
