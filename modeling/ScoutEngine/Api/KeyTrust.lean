import ScoutEngine.Api.Auth
import ScoutEngine.Lib.Table
import Mathlib.Data.List.Nodup
import Mathlib.Data.List.Pairwise
import Mathlib.Data.List.TakeWhile

/-!
# Who may call

* `AuthState.Moved`, `step_moved`: what an action does.
* `Mints`, `MadeByCli`: where keys come from.
* `AuthInv`, `AuthInv.move`: the invariant of the rows and the requests; `KeyHistory`: that of a
  whole run.
* `HttpRequest.Straight`: the `Host` header does not turn the path into a public one.
* **`keys_trusted`**: every key that the command did not make is a plain key minted by one invite,
  which mints no other; invites come from admins; a revoked key admits nobody any more; and once
  there is a key, no straight request is admitted without one.
* `host_opens`: a request that is not.
-/

set_option autoImplicit false

namespace ScoutEngine

open Transition

variable {cfg : AuthConfig} {s s' : AuthState} {a : AuthAct} {k : ℕ} {c c' : Exchange}

/-! ## Actions -/

/-- The handler was reached and has not answered. -/
def Phase.Inside : Phase → Prop
  | handling | registering _ | revoking _ => True
  | _ => False

namespace Exchange

/-- The request holds no lock. -/
def Free (c : Exchange) : Prop := ∀ invite, c.phase ≠ .registering invite

theorem free_answer (status : ℕ) (detail : String) : (c.answer status detail).Free := nofun

theorem authenticate_cases (cfg : AuthConfig) (r : HttpRequest) :
    ((authenticate cfg r).request = r ∧ (authenticate cfg r).Free) ∧
      ((authenticate cfg r).caller = none ∧
          (∀ token, (authenticate cfg r).phase = .lookingUp token →
            bearer r.authorization = .ok token) ∨
        (authenticate cfg r).caller = some .legacy ∧
          (∀ token, (authenticate cfg r).phase ≠ .lookingUp token) ∧
          cfg.apiKey ≠ "" ∧ bearer r.authorization = .ok cfg.apiKey) := by
  unfold authenticate
  cases hb : bearer r.authorization with
  | error e => exact ⟨⟨rfl, nofun⟩, Or.inl ⟨rfl, nofun⟩⟩
  | ok token =>
    dsimp only
    split_ifs with he
    · exact ⟨⟨rfl, nofun⟩, Or.inl ⟨rfl, fun t ht => congrArg _ (Phase.lookingUp.inj ht)⟩⟩
    · cases hd : compareDigest token cfg.apiKey with
      | none => exact ⟨⟨rfl, nofun⟩, Or.inl ⟨rfl, nofun⟩⟩
      | some same =>
        cases same with
        | false => exact ⟨⟨rfl, nofun⟩, Or.inl ⟨rfl, fun t ht => congrArg _ (Phase.lookingUp.inj ht)⟩⟩
        | true =>
          unfold compareDigest at hd
          split_ifs at hd
          obtain rfl : token = cfg.apiKey := of_decide_eq_true (Option.some.inj hd)
          exact ⟨⟨rfl, nofun⟩, Or.inr ⟨rfl, nofun, he, rfl⟩⟩

theorem authenticate_outside {r : HttpRequest} (hc : (authenticate cfg r).caller = none) :
    ¬ (authenticate cfg r).phase.Inside := by
  unfold authenticate at hc ⊢
  split at hc
  · exact id
  · split_ifs at hc ⊢
    · exact id
    · split at hc
      · exact id
      · cases hc
      · exact id

end Exchange

/-- The actions that make no key. -/
def AuthAct.Keyless : AuthAct → Prop
  | .register .. | .createAdminKey .. => False
  | _ => True

/-- **The actions.** -/
inductive AuthState.Moved (cfg : AuthConfig) (s : AuthState) : AuthAct → AuthState → Prop where
  | arrive {k : ℕ} {r : HttpRequest} (hk : s.calls k = none) :
      Moved cfg s (.arrive k r) (s.put k (.enter cfg r))
  | goOn {a : AuthAct} {k : ℕ} {c c' : Exchange} (ha : a.Keyless) (hk : s.calls k = some c)
      (hfree : c.Free) (hfree' : c'.Free) (hreq : c'.request = c.request)
      (hcaller : c'.caller = c.caller) (htoken : ∀ token, c'.phase ≠ .lookingUp token)
      (hinside : c'.phase.Inside → c.phase.Inside)
      (hother : ∀ id, c'.phase = .revoking id → c.isAdmin = true ∧ c.keyId ≠ some id) :
      Moved cfg s a (s.put k c')
  | openDoor {k : ℕ} {c : Exchange} (hk : s.calls k = some c) (hp : c.phase = .counting)
      (he : s.keys = []) : Moved cfg s (.count k) (s.put k (c.authorize .anonymous))
  | closedDoor {k : ℕ} {c : Exchange} (hk : s.calls k = some c) (hp : c.phase = .counting) :
      Moved cfg s (.count k) (s.put k (.authenticate cfg c.request))
  | authorize {k : ℕ} {c : Exchange} {token : String} {row : ApiKey} (hk : s.calls k = some c)
      (hp : c.phase = .lookingUp token) (hrow : row ∈ s.keys)
      (hhash : row.keyHash = cfg.hashKey token) (hrevoked : row.revoked = false) :
      Moved cfg s (.lookUp k) (s.put k (c.authorize (.key row.id row.isAdmin)))
  | createInvite {k id now : ℕ} {c : Exchange} {rawToken : String} {row : InviteToken}
      (hk : s.calls k = some c) (hp : c.phase = .handling) (hadmin : c.isAdmin = true)
      (hid : row.id = id) (hnew : ¬ s.InviteTaken row.tokenHash row.id) :
      Moved cfg s (.createInvite k rawToken id now) ((s.addInvite row).put k (c.answer 201 rawToken))
  | selectInvite {k now : ℕ} {c : Exchange} {row : InviteToken} (hk : s.calls k = some c)
      (hp : c.phase = .handling) (hrow : row ∈ s.invites) (hlock : row.id ∉ s.locked)
      (hused : row.usedAt = none) :
      Moved cfg s (.selectInvite k now)
        ((s.lock row.id).put k { c with phase := .registering row })
  | release {a : AuthAct} {k : ℕ} {c : Exchange} {invite : InviteToken} {status : ℕ} {detail : String}
      (hk : s.calls k = some c) (hp : c.phase = .registering invite)
      (ha : a.Keyless ∨ ∃ rawKey id now, a = .register k rawKey id now ∧
        s.KeyTaken (cfg.hashKey rawKey) id) :
      Moved cfg s a ((s.unlock invite.id).put k (c.answer status detail))
  | register {k id now : ℕ} {c : Exchange} {invite : InviteToken} {rawKey : String}
      (hk : s.calls k = some c) (hp : c.phase = .registering invite)
      (hnew : ¬ s.KeyTaken (cfg.hashKey rawKey) id) :
      Moved cfg s (.register k rawKey id now)
        ((((s.markUsed invite.id now).addKey
          { id := id, keyHash := cfg.hashKey rawKey, label := invite.label, isAdmin := false }).unlock
            invite.id).put k (c.answer 201 rawKey))
  | revoke {k id : ℕ} {c : Exchange} (hk : s.calls k = some c) (hp : c.phase = .revoking id) :
      Moved cfg s (.revokeKey k) ((s.revoke id).put k (c.answer 204 ""))
  | createAdminKey {rawKey : String} {id : ℕ} {label : String}
      (hnew : ¬ s.KeyTaken (cfg.hashKey rawKey) id) :
      Moved cfg s (.createAdminKey rawKey id label)
        (s.addKey { id := id, keyHash := cfg.hashKey rawKey, label := label, isAdmin := true })

theorem AuthState.answer_moved (ha : a.Keyless) (hk : s.calls k = some c) (hfree : c.Free)
    (status : ℕ) (detail : String) : s.Moved cfg a (s.put k (c.answer status detail)) :=
  .goOn ha hk hfree (Exchange.free_answer _ _) rfl rfl nofun False.elim nofun

theorem AuthState.rollback_moved (ha : a.Keyless ∨ ∃ rawKey id now, a = .register k rawKey id now ∧
    s.KeyTaken (cfg.hashKey rawKey) id) (hk : s.calls k = some c)
    (hp : a.Keyless ∨ ∃ invite, c.phase = .registering invite) (status : ℕ) (detail : String) :
    s.Moved cfg a (s.rollback k c status detail) := by
  unfold rollback
  split
  · exact .release hk ‹_› ha
  · rename_i hfree
    rcases hp with hq | ⟨invite, hp⟩
    · exact answer_moved hq hk hfree _ _
    · exact absurd hp (hfree invite)

/-- A request that holds no lock. -/
theorem Exchange.free_of_phase {phase : Phase} (hp : c.phase = phase)
    (hphase : ∀ invite, phase ≠ .registering invite) : c.Free := fun invite => by
  rw [hp]
  exact hphase invite

theorem AuthState.count_moved (hk : s.calls k = some c) (hp : c.phase = .counting) :
    s.Moved cfg (.count k) (s.count cfg k c) := by
  unfold count
  split_ifs with he
  · exact .openDoor hk hp he
  · exact .closedDoor hk hp

theorem AuthState.lookUp_moved {token : String} (hk : s.calls k = some c)
    (hp : c.phase = .lookingUp token) : s.Moved cfg (.lookUp k) (s.lookUp cfg k c token) := by
  have hfree : c.Free := Exchange.free_of_phase hp nofun
  unfold lookUp
  split
  · exact answer_moved (by trivial) hk hfree _ _
  · rename_i row hrow
    split_ifs with hr
    · exact answer_moved (by trivial) hk hfree _ _
    · exact .authorize hk hp (List.mem_of_find?_eq_some hrow) (Table.key_of_find hrow)
        (Bool.eq_false_iff.mpr hr)

theorem AuthState.createInvite_moved (hk : s.calls k = some c) (hp : c.phase = .handling)
    (label rawToken : String) (id now : ℕ) :
    s.Moved cfg (.createInvite k rawToken id now) (s.createInvite cfg k c label rawToken id now) := by
  have hfree : c.Free := Exchange.free_of_phase hp nofun
  unfold createInvite
  split_ifs with hadmin hlen htaken
  · exact answer_moved (by trivial) hk hfree _ _
  · exact answer_moved (by trivial) hk hfree _ _
  · exact answer_moved (by trivial) hk hfree _ _
  · exact .createInvite hk hp (eq_true_of_ne_false hadmin) rfl htaken

theorem AuthState.selectInvite_moved {inviteToken : String} {now : ℕ} (hk : s.calls k = some c)
    (hp : c.phase = .handling) (h : s.selectInvite cfg k c inviteToken now = some s') :
    s.Moved cfg (.selectInvite k now) s' := by
  have hfree : c.Free := Exchange.free_of_phase hp nofun
  unfold selectInvite at h
  split at h
  · obtain rfl := Option.some.inj h
    exact answer_moved (by trivial) hk hfree _ _
  · rename_i row hrow
    split_ifs at h with hlock hused hexp
    · obtain rfl := Option.some.inj h
      exact answer_moved (by trivial) hk hfree _ _
    · obtain rfl := Option.some.inj h
      exact answer_moved (by trivial) hk hfree _ _
    · obtain rfl := Option.some.inj h
      exact .selectInvite hk hp (List.mem_of_find?_eq_some hrow) hlock (not_not.mp hused)

theorem AuthState.register_moved {invite : InviteToken} (hk : s.calls k = some c)
    (hp : c.phase = .registering invite) (rawKey : String) (id now : ℕ) :
    s.Moved cfg (.register k rawKey id now) (s.register cfg k c invite rawKey id now) := by
  unfold register
  split_ifs with htaken
  · exact rollback_moved (Or.inr ⟨_, _, _, rfl, htaken⟩) hk (Or.inr ⟨_, hp⟩) _ _
  · exact .register hk hp htaken

theorem AuthState.findKey_moved (hk : s.calls k = some c) (hp : c.phase = .handling)
    (keyId : String) : s.Moved cfg (.findKey k) (s.findKey cfg k c keyId) := by
  have hfree : c.Free := Exchange.free_of_phase hp nofun
  unfold findKey
  split_ifs with hadmin
  · exact answer_moved (by trivial) hk hfree _ _
  · split
    · exact answer_moved (by trivial) hk hfree _ _
    · split_ifs with hself
      · exact answer_moved (by trivial) hk hfree _ _
      · refine .goOn trivial hk hfree nofun rfl rfl nofun (fun _ => ?_) fun id hid => ?_
        · rw [hp]
          trivial
        · obtain rfl := Phase.revoking.inj hid
          exact ⟨eq_true_of_ne_false hadmin, hself⟩
      · exact answer_moved (by trivial) hk hfree _ _

/-- **An action that is taken is one of these.** -/
theorem AuthState.step_moved (h : s.step cfg a = some s') : s.Moved cfg a s' := by
  cases a with
  | arrive k r =>
    simp only [step] at h
    split at h
    · obtain rfl := Option.some.inj h
      exact .arrive ‹_›
    · cases h
  | count k =>
    obtain ⟨c, hk, h⟩ := Option.bind_eq_some_iff.mp h
    split at h
    · obtain rfl := Option.some.inj h
      exact count_moved hk ‹_›
    · cases h
  | lookUp k =>
    obtain ⟨c, hk, h⟩ := Option.bind_eq_some_iff.mp h
    split at h
    · obtain rfl := Option.some.inj h
      exact lookUp_moved hk ‹_›
    · cases h
  | createInvite k rawToken id now =>
    obtain ⟨c, hk, h⟩ := Option.bind_eq_some_iff.mp h
    split at h
    · obtain rfl := Option.some.inj h
      exact createInvite_moved hk ‹_› _ _ _ _
    · cases h
  | selectInvite k now =>
    obtain ⟨c, hk, h⟩ := Option.bind_eq_some_iff.mp h
    split at h
    · exact selectInvite_moved hk ‹_› h
    · cases h
  | register k rawKey id now =>
    obtain ⟨c, hk, h⟩ := Option.bind_eq_some_iff.mp h
    split at h
    · obtain rfl := Option.some.inj h
      exact register_moved hk ‹_› _ _ _
    · cases h
  | findKey k =>
    obtain ⟨c, hk, h⟩ := Option.bind_eq_some_iff.mp h
    split at h
    · obtain rfl := Option.some.inj h
      exact findKey_moved hk ‹_› _
    · cases h
  | revokeKey k =>
    obtain ⟨c, hk, h⟩ := Option.bind_eq_some_iff.mp h
    split at h
    · obtain rfl := Option.some.inj h
      exact .revoke hk ‹_›
    · cases h
  | answer k =>
    obtain ⟨c, hk, h⟩ := Option.bind_eq_some_iff.mp h
    split at h
    · rename_i hp _
      obtain rfl := Option.some.inj h
      exact answer_moved (by trivial) hk (Exchange.free_of_phase hp nofun) _ _
    · cases h
  | fail k =>
    obtain ⟨c, hk, h⟩ := Option.bind_eq_some_iff.mp h
    split at h
    · cases h
    · rename_i hp
      obtain rfl := Option.some.inj h
      exact answer_moved (by trivial) hk (Exchange.free_of_phase hp nofun) _ _
    · obtain rfl := Option.some.inj h
      exact rollback_moved (a := .fail k) (Or.inl trivial) hk (Or.inl trivial) _ _
  | createAdminKey rawKey id label =>
    simp only [step] at h
    split_ifs at h with htaken
    obtain rfl := Option.some.inj h
    exact .createAdminKey htaken

/-! ## What actions keep -/

namespace AuthState

/-- Every key stays, and stays revoked once it is. -/
def KeysKept (s s' : AuthState) : Prop :=
  ∀ row ∈ s.keys, ∃ row' ∈ s'.keys, row'.id = row.id ∧ row'.keyHash = row.keyHash ∧
    row'.isAdmin = row.isAdmin ∧ (row.revoked = true → row'.revoked = true)

theorem KeysKept.of_subset (h : ∀ row ∈ s.keys, row ∈ s'.keys) : s.KeysKept s' :=
  fun row hrow => ⟨row, h row hrow, rfl, rfl, rfl, id⟩

theorem KeysKept.trans {s'' : AuthState} (h : s.KeysKept s') (h' : s'.KeysKept s'') :
    s.KeysKept s'' := by
  intro row hrow
  obtain ⟨row', hrow', h1, h2, h3, h4⟩ := h row hrow
  obtain ⟨row'', hrow'', h1', h2', h3', h4'⟩ := h' row' hrow'
  exact ⟨row'', hrow'', h1'.trans h1, h2'.trans h2, h3'.trans h3, h4' ∘ h4⟩

theorem keysKept_revoke (id : ℕ) : s.KeysKept (s.revoke id) := by
  intro row hrow
  refine ⟨row.revoke id, List.mem_map_of_mem hrow, ?_⟩
  unfold ApiKey.revoke
  split_ifs
  · exact ⟨rfl, rfl, rfl, fun _ => rfl⟩
  · exact ⟨rfl, rfl, rfl, fun h => h⟩

theorem Moved.keysKept (h : s.Moved cfg a s') : s.KeysKept s' := by
  cases h with
  | register | createAdminKey => exact .of_subset fun row hrow => List.mem_append_left _ hrow
  | revoke => exact keysKept_revoke _
  | _ => exact .of_subset fun row hrow => hrow

/-- A call of the new state is an old one, or the one that moved. -/
theorem put_self (s : AuthState) (k : ℕ) (c : Exchange) : (s.put k c).calls k = some c := by
  simp [AuthState.put]

theorem put_cases {j : ℕ} (h : (s.put k c').calls j = some c) :
    j = k ∧ c = c' ∨ j ≠ k ∧ s.calls j = some c :=
  (update_cases h).imp_left fun h => ⟨h.1, (Option.some.inj h.2).symm⟩

/-- The caller was admitted for what its header says. -/
def Admitted (cfg : AuthConfig) (s : AuthState) (c : Exchange) : Prop :=
  (c.caller = some .legacy → cfg.apiKey ≠ "" ∧ bearer c.request.authorization = .ok cfg.apiKey) ∧
    ∀ id isAdmin, c.caller = some (.key id isAdmin) →
      ∃ token, bearer c.request.authorization = .ok token ∧
        ∃ row ∈ s.keys, row.id = id ∧ row.keyHash = cfg.hashKey token ∧ row.isAdmin = isAdmin

theorem Admitted.mono (h : s.Admitted cfg c) (hs : s.KeysKept s') : s'.Admitted cfg c := by
  refine ⟨h.1, fun id isAdmin hc => ?_⟩
  obtain ⟨token, ht, row, hrow, h1, h2, h3⟩ := h.2 id isAdmin hc
  obtain ⟨row', hrow', h1', h2', h3', -⟩ := hs row hrow
  exact ⟨token, ht, row', hrow', h1'.trans h1, h2'.trans h2, h3'.trans h3⟩

theorem Admitted.of_caller (h : s.Admitted cfg c) (hr : c'.request = c.request)
    (hc : c'.caller = c.caller) : s.Admitted cfg c' := by
  unfold Admitted
  rw [hr, hc]
  exact h

theorem admitted_of_none (hc : c.caller = none ∨ c.caller = some .anonymous) : s.Admitted cfg c := by
  rcases hc with hc | hc <;> simp [Admitted, hc]

end AuthState

/-! ## The invariant of the state -/

/-- **Rows have their ids to themselves, and so have registrations their invites.** -/
structure AuthInv (cfg : AuthConfig) (s : AuthState) : Prop where
  keyIds : (s.keys.map ApiKey.id).Nodup
  inviteIds : (s.invites.map InviteToken.id).Nodup
  token : ∀ k c token, s.calls k = some c → c.phase = .lookingUp token →
    bearer c.request.authorization = .ok token
  registering : ∀ k c row, s.calls k = some c → c.phase = .registering row →
    row ∈ s.invites ∧ row.usedAt = none ∧ row.id ∈ s.locked
  exclusive : ∀ k k' c c' row row', s.calls k = some c → s.calls k' = some c' →
    c.phase = .registering row → c'.phase = .registering row' → row.id = row'.id → k = k'
  admitted : ∀ k c, s.calls k = some c → s.Admitted cfg c
  inside : ∀ k c, s.calls k = some c → c.phase.Inside → c.caller ≠ none

namespace AuthInv

theorem init : AuthInv cfg {} := by
  refine ⟨List.nodup_nil, List.nodup_nil, ?_, ?_, ?_, ?_, ?_⟩ <;> intro _ _ <;> simp

/-- A request goes on that gets no lock. -/
theorem put (h : AuthInv cfg s) (hfree : c'.Free)
    (htoken : ∀ token, c'.phase = .lookingUp token → bearer c'.request.authorization = .ok token)
    (hadm : s.Admitted cfg c') (hinside : c'.phase.Inside → c'.caller ≠ none) :
    AuthInv cfg (s.put k c') := by
  refine ⟨h.keyIds, h.inviteIds, fun j c token hj hp => ?_, fun j c row hj hp => ?_,
    fun j j' c₁ c₂ row row' hj hj' hp hp' => ?_, fun j c hj => ?_, fun j c hj => ?_⟩
  · rcases AuthState.put_cases hj with ⟨-, rfl⟩ | ⟨-, hj⟩
    · exact htoken token hp
    · exact h.token j c token hj hp
  · rcases AuthState.put_cases hj with ⟨-, rfl⟩ | ⟨-, hj⟩
    · exact absurd hp (hfree row)
    · exact h.registering j c row hj hp
  · rcases AuthState.put_cases hj with ⟨-, rfl⟩ | ⟨-, hj⟩
    · exact absurd hp (hfree row)
    · rcases AuthState.put_cases hj' with ⟨-, rfl⟩ | ⟨-, hj'⟩
      · exact absurd hp' (hfree row')
      · exact h.exclusive j j' c₁ c₂ row row' hj hj' hp hp'
  · rcases AuthState.put_cases hj with ⟨-, rfl⟩ | ⟨-, hj⟩
    · exact hadm
    · exact h.admitted j c hj
  · rcases AuthState.put_cases hj with ⟨-, rfl⟩ | ⟨-, hj⟩
    · exact hinside
    · exact h.inside j c hj

/-- Rows are added or revoked. -/
theorem rows (h : AuthInv cfg s) (hc : s'.calls = s.calls) (hl : s'.locked = s.locked)
    (hkeys : (s'.keys.map ApiKey.id).Nodup) (hinvites : (s'.invites.map InviteToken.id).Nodup)
    (hrows : ∀ row ∈ s.invites, row ∈ s'.invites) (hkept : s.KeysKept s') : AuthInv cfg s' := by
  refine ⟨hkeys, hinvites, ?_, fun j c row hj hp => ?_, ?_, fun j c hj => ?_, ?_⟩
  · rw [hc]
    exact h.token
  · rw [hc] at hj
    obtain ⟨h1, h2, h3⟩ := h.registering j c row hj hp
    exact ⟨hrows row h1, h2, hl ▸ h3⟩
  · rw [hc]
    exact h.exclusive
  · rw [hc] at hj
    exact (h.admitted j c hj).mono hkept
  · rw [hc]
    exact h.inside

/-- A registration ends and gives its lock back. -/
theorem leave (h : AuthInv cfg s) {invite : InviteToken} (hk : s.calls k = some c)
    (hp : c.phase = .registering invite) (hc : s'.calls = s.calls)
    (hl : s'.locked = s.locked.filter (· ≠ invite.id)) (hkeys : (s'.keys.map ApiKey.id).Nodup)
    (hinvites : (s'.invites.map InviteToken.id).Nodup)
    (hrows : ∀ row ∈ s.invites, row.id ≠ invite.id → row ∈ s'.invites) (hkept : s.KeysKept s')
    (status : ℕ) (detail : String) : AuthInv cfg (s'.put k (c.answer status detail)) := by
  have hother : ∀ j c₁ row, j ≠ k → s.calls j = some c₁ → c₁.phase = .registering row →
      row.id ≠ invite.id := fun j c₁ row hjk hj hp' he =>
    hjk (h.exclusive j k c₁ c row invite hj hk hp' hp he)
  refine ⟨hkeys, hinvites, fun j c₁ token hj hp' => ?_, fun j c₁ row hj hp' => ?_,
    fun j j' c₁ c₂ row row' hj hj' hp₁ hp₂ => ?_, fun j c₁ hj => ?_, fun j c₁ hj => ?_⟩
  · rcases AuthState.put_cases hj with ⟨-, rfl⟩ | ⟨-, hj⟩
    · cases hp'
    · exact h.token j c₁ token (hc ▸ hj) hp'
  · rcases AuthState.put_cases hj with ⟨-, rfl⟩ | ⟨hjk, hj⟩
    · cases hp'
    · rw [hc] at hj
      obtain ⟨h1, h2, h3⟩ := h.registering j c₁ row hj hp'
      have hne := hother j c₁ row hjk hj hp'
      refine ⟨hrows row h1 hne, h2, ?_⟩
      show row.id ∈ s'.locked
      rw [hl, List.mem_filter]
      exact ⟨h3, decide_eq_true hne⟩
  · rcases AuthState.put_cases hj with ⟨-, rfl⟩ | ⟨-, hj⟩
    · cases hp₁
    · rcases AuthState.put_cases hj' with ⟨-, rfl⟩ | ⟨-, hj'⟩
      · cases hp₂
      · exact h.exclusive j j' c₁ c₂ row row' (hc ▸ hj) (hc ▸ hj') hp₁ hp₂
  · rcases AuthState.put_cases hj with ⟨-, rfl⟩ | ⟨-, hj⟩
    · exact ((h.admitted k c hk).mono hkept).of_caller rfl rfl
    · exact (h.admitted j c₁ (hc ▸ hj)).mono hkept
  · rcases AuthState.put_cases hj with ⟨-, rfl⟩ | ⟨-, hj⟩
    · exact False.elim
    · exact h.inside j c₁ (hc ▸ hj)

theorem nodup_addKey (h : AuthInv cfg s) {row : ApiKey} (hnew : ¬ s.KeyTaken row.keyHash row.id) :
    ((s.keys ++ [row]).map ApiKey.id).Nodup :=
  Table.nodup_insert h.keyIds fun old hold hid => hnew ⟨old, hold, Or.inr hid⟩

theorem nodup_addInvite (h : AuthInv cfg s) {row : InviteToken}
    (hnew : ¬ s.InviteTaken row.tokenHash row.id) :
    ((s.invites ++ [row]).map InviteToken.id).Nodup :=
  Table.nodup_insert h.inviteIds fun old hold hid => hnew ⟨old, hold, Or.inr hid⟩

theorem nodup_revoke (h : AuthInv cfg s) (id : ℕ) : ((s.revoke id).keys.map ApiKey.id).Nodup :=
  Table.nodup_update h.keyIds fun row => by
    unfold ApiKey.revoke
    split_ifs <;> rfl

theorem nodup_markUsed (h : AuthInv cfg s) (id now : ℕ) :
    ((s.markUsed id now).invites.map InviteToken.id).Nodup :=
  Table.nodup_update h.inviteIds fun row => by
    unfold InviteToken.markUsed
    split_ifs <;> rfl

theorem mem_markUsed {row : InviteToken} {id : ℕ} (hrow : row ∈ s.invites) (hne : row.id ≠ id)
    (now : ℕ) : row ∈ (s.markUsed id now).invites :=
  List.mem_map.mpr ⟨row, hrow, if_neg hne⟩

/-- A registration gets the lock. -/
theorem selectInvite (h : AuthInv cfg s) {row : InviteToken} (hk : s.calls k = some c)
    (hp : c.phase = .handling) (hrow : row ∈ s.invites) (hlock : row.id ∉ s.locked)
    (hused : row.usedAt = none) :
    AuthInv cfg ((s.lock row.id).put k { c with phase := .registering row }) := by
  have hother : ∀ j c₁ row₁, s.calls j = some c₁ → c₁.phase = .registering row₁ → row₁.id ≠ row.id :=
    fun j c₁ row₁ hj hp₁ he => hlock (he ▸ (h.registering j c₁ row₁ hj hp₁).2.2)
  refine ⟨h.keyIds, h.inviteIds, fun j c₁ token hj hp₁ => ?_, fun j c₁ row₁ hj hp₁ => ?_,
    fun j j' c₁ c₂ row₁ row₂ hj hj' hp₁ hp₂ he => ?_, fun j c₁ hj => ?_, fun j c₁ hj hin => ?_⟩
  · rcases AuthState.put_cases hj with ⟨-, rfl⟩ | ⟨-, hj⟩
    · cases hp₁
    · exact h.token j c₁ token hj hp₁
  · rcases AuthState.put_cases hj with ⟨-, rfl⟩ | ⟨-, hj⟩
    · obtain rfl := Phase.registering.inj hp₁
      exact ⟨hrow, hused, List.mem_cons_self⟩
    · obtain ⟨h1, h2, h3⟩ := h.registering j c₁ row₁ hj hp₁
      exact ⟨h1, h2, List.mem_cons_of_mem _ h3⟩
  · rcases AuthState.put_cases hj with ⟨hjk, rfl⟩ | ⟨-, hj₁⟩
    · obtain rfl := Phase.registering.inj hp₁
      rcases AuthState.put_cases hj' with ⟨hjk', -⟩ | ⟨-, hj₂⟩
      · exact hjk.trans hjk'.symm
      · exact absurd he.symm (hother j' c₂ row₂ hj₂ hp₂)
    · rcases AuthState.put_cases hj' with ⟨-, rfl⟩ | ⟨-, hj₂⟩
      · obtain rfl := Phase.registering.inj hp₂
        exact absurd he (hother j c₁ row₁ hj₁ hp₁)
      · exact h.exclusive j j' c₁ c₂ row₁ row₂ hj₁ hj₂ hp₁ hp₂ he
  · rcases AuthState.put_cases hj with ⟨-, rfl⟩ | ⟨-, hj⟩
    · exact (h.admitted k c hk).of_caller rfl rfl
    · exact h.admitted j c₁ hj
  · rcases AuthState.put_cases hj with ⟨-, rfl⟩ | ⟨-, hj⟩
    · exact h.inside k c hk (by rw [hp]; trivial)
    · exact h.inside j c₁ hj hin

theorem authenticate_admitted (cfg : AuthConfig) (s : AuthState) (r : HttpRequest) :
    s.Admitted cfg (.authenticate cfg r) := by
  obtain ⟨⟨hr, -⟩, ⟨hc, -⟩ | ⟨hc, -, hne, hb⟩⟩ := Exchange.authenticate_cases cfg r
  · exact AuthState.admitted_of_none (Or.inl hc)
  · simp [AuthState.Admitted, hc, hr, hne, hb]

/-- The middleware looks at the header. -/
theorem authenticate (h : AuthInv cfg s) (r : HttpRequest) :
    AuthInv cfg (s.put k (.authenticate cfg r)) := by
  obtain ⟨⟨hr, hfree⟩, hcases⟩ := Exchange.authenticate_cases cfg r
  refine h.put hfree (fun token hp => ?_) (authenticate_admitted cfg s r) fun hin => ?_
  · rw [hr]
    rcases hcases with ⟨-, htoken⟩ | ⟨-, hno, -⟩
    · exact htoken token hp
    · exact absurd hp (hno token)
  · rcases hcases with ⟨hc, -⟩ | ⟨hc, -⟩
    · exact absurd hin (Exchange.authenticate_outside hc)
    · rw [hc]
      nofun

/-- **The invariant is kept.** -/
theorem move (h : AuthInv cfg s) (hm : s.Moved cfg a s') : AuthInv cfg s' := by
  have hkept := hm.keysKept
  cases hm with
  | @arrive k r hk =>
    unfold Exchange.enter
    split_ifs
    · exact h.put nofun nofun (AuthState.admitted_of_none (Or.inr rfl)) fun _ => nofun
    · exact h.put nofun nofun (AuthState.admitted_of_none (Or.inl rfl)) False.elim
    · exact h.authenticate r
  | @goOn _ k c c' _ hk hfree hfree' hr hc htoken hin =>
    refine h.put hfree' (fun token hp => absurd hp (htoken token))
      ((h.admitted k c hk).of_caller hr hc) fun hi => ?_
    rw [hc]
    exact h.inside k c hk (hin hi)
  | openDoor => exact h.put nofun nofun (AuthState.admitted_of_none (Or.inr rfl)) fun _ => nofun
  | closedDoor => exact h.authenticate _
  | @authorize k c token row hk hp hrow hhash =>
    refine h.put nofun nofun ⟨nofun, fun id isAdmin hc => ?_⟩ fun _ => nofun
    obtain ⟨rfl, rfl⟩ := Caller.key.inj (Option.some.inj hc)
    exact ⟨token, h.token k c token hk hp, row, hrow, rfl, hhash, rfl⟩
  | @createInvite k id now c rawToken row hk _ _ _ hnew =>
    have hrows : AuthInv cfg (s.addInvite row) :=
      h.rows rfl rfl h.keyIds (h.nodup_addInvite hnew)
        (fun _ hr => List.mem_append_left _ hr) hkept
    exact hrows.put nofun nofun ((hrows.admitted k c hk).of_caller rfl rfl) False.elim
  | selectInvite hk hp hrow hlock hused => exact h.selectInvite hk hp hrow hlock hused
  | @release _ k c invite _ _ hk hp =>
    have hcalls : (s.unlock invite.id).calls = s.calls := rfl
    exact h.leave hk hp hcalls rfl h.keyIds h.inviteIds (fun _ hr _ => hr) hkept _ _
  | @register k id now c invite rawKey hk hp hnew =>
    have hcalls : (((s.markUsed invite.id now).addKey ⟨id, cfg.hashKey rawKey, invite.label, false,
      false⟩).unlock invite.id).calls = s.calls := rfl
    exact h.leave hk hp hcalls rfl (h.nodup_addKey hnew) (h.nodup_markUsed invite.id now)
      (fun _ hr hne => mem_markUsed hr hne now) hkept _ _
  | @revoke k id c hk =>
    have hrows : AuthInv cfg (s.revoke id) :=
      h.rows rfl rfl (h.nodup_revoke id) h.inviteIds (fun _ hr => hr) hkept
    exact hrows.put nofun nofun ((hrows.admitted k c hk).of_caller rfl rfl) False.elim
  | createAdminKey hnew =>
    exact h.rows rfl rfl (h.nodup_addKey hnew) h.inviteIds (fun _ hr => hr) hkept

end AuthInv

theorem AuthInv.of_run {h : List (AuthState × AuthAct)} (hr : (authService cfg).Run h s) :
    AuthInv cfg s :=
  hr.always .init fun _ _ _ hi hs => hi.move (AuthState.step_moved hs)

/-! ## Where keys and invites come from -/

/-- The request was admitted for the static key or for a key of the table. -/
def AuthState.Authenticated (cfg : AuthConfig) (s : AuthState) (c : Exchange) : Prop :=
  (c.caller = some .legacy ∧ cfg.apiKey ≠ "" ∧ bearer c.request.authorization = .ok cfg.apiKey) ∨
    ∃ token, bearer c.request.authorization = .ok token ∧
      ∃ row ∈ s.keys, row.keyHash = cfg.hashKey token ∧
        c.caller = some (.key row.id row.isAdmin)

/-- The action makes an invite, for an authenticated admin. -/
def Invites (cfg : AuthConfig) (e : AuthState × AuthAct) (invite : ℕ) : Prop :=
  ∃ k rawToken now c, e.2 = .createInvite k rawToken invite now ∧ e.1.calls k = some c ∧
    e.1.Authenticated cfg c ∧ c.isAdmin = true

/-- The action makes a key, with an invite. -/
def Mints (cfg : AuthConfig) (e : AuthState × AuthAct) (invite key : ℕ) : Prop :=
  ∃ k rawKey now c row, e.2 = .register k rawKey key now ∧ e.1.calls k = some c ∧
    c.phase = .registering row ∧ row.id = invite ∧ ¬ e.1.KeyTaken (cfg.hashKey rawKey) key

/-- The actions make no two keys with one invite, nor one key twice. -/
def Apart (cfg : AuthConfig) (e e' : AuthState × AuthAct) : Prop :=
  ∀ invite key invite' key', Mints cfg e invite key → Mints cfg e' invite' key' →
    invite ≠ invite' ∧ key ≠ key'

instance : Std.Symm (Apart cfg) where
  symm _ _ h i x i' x' hm hm' := (h i' x' i x hm' hm).imp Ne.symm Ne.symm

theorem Mints.invite_unique {e : AuthState × AuthAct} {invite invite' key : ℕ}
    (h : Mints cfg e invite key) (h' : Mints cfg e invite' key) : invite = invite' := by
  obtain ⟨k, _, _, c, row, ha, hk, hp, rfl, -⟩ := h
  obtain ⟨k', _, _, c', row', ha', hk', hp', rfl, -⟩ := h'
  obtain ⟨rfl, -⟩ := AuthAct.register.inj (ha.symm.trans ha')
  obtain rfl := Option.some.inj (hk.symm.trans hk')
  obtain rfl := Phase.registering.inj (hp.symm.trans hp')
  rfl

/-- The command made the key. -/
def MadeByCli (h : List (AuthState × AuthAct)) (key : ℕ) : Prop :=
  ∃ e ∈ h, ∃ rawKey label, e.2 = .createAdminKey rawKey key label

theorem AuthState.Admitted.authenticated (h : s.Admitted cfg c) (hc : c.caller ≠ none)
    (ha : c.caller ≠ some .anonymous) : s.Authenticated cfg c := by
  cases hcaller : c.caller with
  | none => exact absurd hcaller hc
  | some x =>
    cases x with
    | anonymous => exact absurd hcaller ha
    | legacy => exact Or.inl ⟨hcaller, h.1 hcaller⟩
    | key id isAdmin =>
      obtain ⟨token, ht, row, hrow, rfl, hhash, rfl⟩ := h.2 id isAdmin hcaller
      exact Or.inr ⟨token, ht, row, hrow, hhash, hcaller⟩

namespace AuthState.Moved

/-- Where a key of the new state comes from. -/
theorem key_origin (hm : s.Moved cfg a s') {key : ApiKey} (hkey : key ∈ s'.keys) :
    (∃ old ∈ s.keys, old.id = key.id ∧ old.isAdmin = key.isAdmin) ∨
      (key.isAdmin = true ∧ ∃ rawKey label, a = .createAdminKey rawKey key.id label) ∨
      (key.isAdmin = false ∧ ∃ invite, Mints cfg (s, a) invite key.id) := by
  cases hm with
  | register hk hp hnew =>
    rcases List.mem_append.mp hkey with hkey | hkey
    · exact Or.inl ⟨key, hkey, rfl, rfl⟩
    · obtain rfl := List.mem_singleton.mp hkey
      exact Or.inr (Or.inr ⟨rfl, _, _, _, _, _, _, rfl, hk, hp, rfl, hnew⟩)
  | revoke =>
    obtain ⟨old, hold, rfl⟩ := List.mem_map.mp hkey
    refine Or.inl ⟨old, hold, ?_⟩
    unfold ApiKey.revoke
    split_ifs <;> exact ⟨rfl, rfl⟩
  | createAdminKey hnew =>
    rcases List.mem_append.mp hkey with hkey | hkey
    · exact Or.inl ⟨key, hkey, rfl, rfl⟩
    · obtain rfl := List.mem_singleton.mp hkey
      exact Or.inr (Or.inl ⟨rfl, _, _, rfl⟩)
  | _ => exact Or.inl ⟨key, hkey, rfl, rfl⟩

/-- Where an invite of the new state comes from. -/
theorem invite_origin (hm : s.Moved cfg a s') (h : AuthInv cfg s) {row : InviteToken}
    (hrow : row ∈ s'.invites) :
    (∃ old ∈ s.invites, old.id = row.id) ∨ Invites cfg (s, a) row.id := by
  cases hm with
  | @createInvite k id now c rawToken new hk hp hadmin hid =>
    rcases List.mem_append.mp hrow with hrow | hrow
    · exact Or.inl ⟨row, hrow, rfl⟩
    · obtain rfl := List.mem_singleton.mp hrow
      have hadm := h.admitted k c hk
      have hne : c.caller ≠ none := h.inside k c hk (by rw [hp]; trivial)
      refine Or.inr ⟨k, rawToken, now, c, by rw [hid], hk, hadm.authenticated hne fun hc => ?_, hadmin⟩
      rw [Exchange.isAdmin, hc] at hadmin
      exact absurd hadmin (by decide)
  | register =>
    obtain ⟨old, hold, rfl⟩ := List.mem_map.mp hrow
    refine Or.inl ⟨old, hold, ?_⟩
    unfold InviteToken.markUsed
    split_ifs <;> rfl
  | _ => exact Or.inl ⟨row, hrow, rfl⟩

/-- Every invite stays, and stays used once it is. -/
theorem invite_kept (hm : s.Moved cfg a s') {row : InviteToken} (hrow : row ∈ s.invites) :
    ∃ row' ∈ s'.invites, row'.id = row.id ∧ (row.usedAt ≠ none → row'.usedAt ≠ none) := by
  cases hm with
  | createInvite => exact ⟨row, List.mem_append_left _ hrow, rfl, id⟩
  | @register k id now c invite =>
    refine ⟨row.markUsed invite.id now, List.mem_map_of_mem hrow, ?_⟩
    unfold InviteToken.markUsed
    split_ifs
    · exact ⟨rfl, fun _ => Option.some_ne_none _⟩
    · exact ⟨rfl, fun h => h⟩
  | _ => exact ⟨row, hrow, rfl, id⟩

/-- What the making of a key takes and leaves. -/
theorem minted (hm : s.Moved cfg a s') (h : AuthInv cfg s) {invite key : ℕ}
    (hmint : Mints cfg (s, a) invite key) :
    ((∃ row ∈ s.invites, row.id = invite ∧ row.usedAt = none) ∧ ∀ row ∈ s.keys, row.id ≠ key) ∧
      (∃ row ∈ s'.invites, row.id = invite ∧ row.usedAt ≠ none) ∧ ∃ row ∈ s'.keys, row.id = key := by
  obtain ⟨k, rawKey, now, c, row, rfl, hk, hp, rfl, hnew⟩ := hmint
  obtain ⟨hrow, hused, -⟩ := h.registering k c row hk hp
  refine ⟨⟨⟨row, hrow, rfl, hused⟩, fun old hold hid => hnew ⟨old, hold, Or.inr hid⟩⟩, ?_⟩
  cases hm with
  | goOn ha => exact absurd ha id
  | release _ _ ha =>
    rcases ha with ha | ⟨_, _, _, ha, htaken⟩
    · exact absurd ha id
    · obtain ⟨-, rfl, rfl, -⟩ := AuthAct.register.inj ha
      exact absurd htaken hnew
  | @register k id now c' invite rawKey hk' hp' =>
    obtain rfl := Option.some.inj (hk.symm.trans hk')
    obtain rfl := Phase.registering.inj (hp.symm.trans hp')
    refine ⟨⟨_, List.mem_map_of_mem hrow, ?_⟩, _, List.mem_append_right _ (List.mem_singleton_self _),
      rfl⟩
    rw [InviteToken.markUsed, if_pos rfl]
    exact ⟨rfl, Option.some_ne_none _⟩

end AuthState.Moved

/-- **What a run tells of the rows.** -/
structure KeyHistory (cfg : AuthConfig) (h : List (AuthState × AuthAct)) (s : AuthState) : Prop where
  keys : ∀ key ∈ s.keys, key.isAdmin = true ∧ MadeByCli h key.id ∨
    key.isAdmin = false ∧ ∃ e ∈ h, ∃ invite, Mints cfg e invite key.id
  invites : ∀ row ∈ s.invites, ∃ e ∈ h, Invites cfg e row.id
  minted : ∀ e ∈ h, ∀ invite key, Mints cfg e invite key →
    (∃ row ∈ s.invites, row.id = invite ∧ row.usedAt ≠ none) ∧ ∃ row ∈ s.keys, row.id = key
  once : h.Pairwise (Apart cfg)

namespace KeyHistory

variable {h : List (AuthState × AuthAct)}

theorem init : KeyHistory cfg [] {} :=
  ⟨fun _ hk => absurd hk List.not_mem_nil, fun _ hr => absurd hr List.not_mem_nil,
    fun _ he => absurd he List.not_mem_nil, .nil⟩

theorem keys_step (hh : KeyHistory cfg h s) (hm : s.Moved cfg a s') :
    ∀ key ∈ s'.keys, key.isAdmin = true ∧ MadeByCli ((s, a) :: h) key.id ∨
      key.isAdmin = false ∧ ∃ e ∈ (s, a) :: h, ∃ invite, Mints cfg e invite key.id := by
  intro key hkey
  rcases hm.key_origin hkey with ⟨old, hold, hid, hadmin⟩ | ⟨hadmin, hmade⟩ | ⟨hadmin, hmint⟩
  · rw [← hid, ← hadmin]
    refine (hh.keys old hold).imp ?_ ?_
    · rintro ⟨ho, e, he, hmade⟩
      exact ⟨ho, e, List.mem_cons_of_mem _ he, hmade⟩
    · rintro ⟨ho, e, he, hmint⟩
      exact ⟨ho, e, List.mem_cons_of_mem _ he, hmint⟩
  · exact Or.inl ⟨hadmin, _, List.mem_cons_self, hmade⟩
  · exact Or.inr ⟨hadmin, _, List.mem_cons_self, hmint⟩

theorem minted_step (hh : KeyHistory cfg h s) (hinv : AuthInv cfg s) (hm : s.Moved cfg a s') :
    ∀ e ∈ (s, a) :: h, ∀ invite key, Mints cfg e invite key →
      (∃ row ∈ s'.invites, row.id = invite ∧ row.usedAt ≠ none) ∧ ∃ row ∈ s'.keys, row.id = key := by
  intro e he invite key hmint
  rcases List.mem_cons.mp he with rfl | he
  · exact (hm.minted hinv hmint).2
  · obtain ⟨⟨row, hrow, hid, hused⟩, old, hold, hkey⟩ := hh.minted e he invite key hmint
    obtain ⟨row', hrow', hid', hused'⟩ := hm.invite_kept hrow
    obtain ⟨new, hnew, hkey', -⟩ := hm.keysKept old hold
    exact ⟨⟨row', hrow', hid'.trans hid, hused' hused⟩, new, hnew, hkey'.trans hkey⟩

/-- The invite of a registration is unused before it, and its key is new. -/
theorem once_step (hh : KeyHistory cfg h s) (hinv : AuthInv cfg s) (hm : s.Moved cfg a s') :
    ∀ e ∈ h, Apart cfg (s, a) e := by
  intro e he invite key invite' key' hmint hmint'
  obtain ⟨⟨row, hrow, hid, hfresh⟩, hnew⟩ := (hm.minted hinv hmint).1
  obtain ⟨⟨row', hrow', hid', hused⟩, old, hold, hkey⟩ := hh.minted e he invite' key' hmint'
  refine ⟨fun heq => hused ?_, fun heq => hnew old hold (hkey.trans heq.symm)⟩
  have hsame : row' = row :=
    List.inj_on_of_nodup_map hinv.inviteIds hrow' hrow (hid'.trans (heq.symm.trans hid.symm))
  rw [hsame]
  exact hfresh

theorem of_run (hr : (authService cfg).Run h s) : KeyHistory cfg h s := by
  induction hr with
  | init => exact init
  | @step h s s' a hr hs ih =>
    have hm := AuthState.step_moved hs
    have hinv := AuthInv.of_run hr
    refine ⟨ih.keys_step hm, fun row hrow => ?_, ih.minted_step hinv hm,
      List.pairwise_cons.mpr ⟨ih.once_step hinv hm, ih.once⟩⟩
    rcases hm.invite_origin hinv hrow with ⟨old, hold, hid⟩ | hnew
    · obtain ⟨e, he, hinvites⟩ := ih.invites old hold
      exact ⟨e, List.mem_cons_of_mem _ he, hid ▸ hinvites⟩
    · exact ⟨_, List.mem_cons_self, hnew⟩

end KeyHistory

/-! ## Who gets in -/

namespace AuthState

/-- The handler was reached with this caller. -/
def CalledBy (s : AuthState) (k : ℕ) (x : Caller) : Prop :=
  ∃ c, s.calls k = some c ∧ c.caller = some x

/-- The handler was reached without a key, and not by a path that the middleware takes for
public. -/
def Intruded (cfg : AuthConfig) (s : AuthState) (k : ℕ) : Prop :=
  ∃ c, s.calls k = some c ∧ c.request.urlPath cfg ∉ publicPaths ∧ c.caller = some .anonymous

/-- Who gets in with an action. -/
theorem Moved.caller_cases (hm : s.Moved cfg a s') (hc : s'.calls k = some c') :
    (∃ c, s.calls k = some c ∧ c.request = c'.request ∧ c.caller = c'.caller) ∨
      c'.caller = none ∨ c'.caller = some .legacy ∨
      (c'.caller = some .anonymous ∧ (c'.request.urlPath cfg ∈ publicPaths ∨ s.keys = [])) ∨
      ∃ row ∈ s.keys, row.revoked = false ∧ c'.caller = some (.key row.id row.isAdmin) := by
  have hdoor : ∀ r, (Exchange.authenticate cfg r).caller = none ∨
      (Exchange.authenticate cfg r).caller = some .legacy := fun r =>
    (Exchange.authenticate_cases cfg r).2.imp And.left And.left
  cases hm with
  | @arrive j r hk =>
    rcases put_cases hc with ⟨-, rfl⟩ | ⟨-, hc⟩
    · unfold Exchange.enter
      split_ifs with hpub
      · exact Or.inr (Or.inr (Or.inr (Or.inl ⟨rfl, Or.inl hpub⟩)))
      · exact Or.inr (Or.inl rfl)
      · exact Or.inr ((hdoor r).imp_right Or.inl)
    · exact Or.inl ⟨c', hc, rfl, rfl⟩
  | openDoor _ _ he =>
    rcases put_cases hc with ⟨-, rfl⟩ | ⟨-, hc⟩
    · exact Or.inr (Or.inr (Or.inr (Or.inl ⟨rfl, Or.inr he⟩)))
    · exact Or.inl ⟨c', hc, rfl, rfl⟩
  | closedDoor =>
    rcases put_cases hc with ⟨-, rfl⟩ | ⟨-, hc⟩
    · exact Or.inr ((hdoor _).imp_right Or.inl)
    · exact Or.inl ⟨c', hc, rfl, rfl⟩
  | authorize _ _ hrow _ hrevoked =>
    rcases put_cases hc with ⟨-, rfl⟩ | ⟨-, hc⟩
    · exact Or.inr (Or.inr (Or.inr (Or.inr ⟨_, hrow, hrevoked, rfl⟩)))
    · exact Or.inl ⟨c', hc, rfl, rfl⟩
  | goOn _ hk _ _ hr hcaller =>
    rcases put_cases hc with ⟨rfl, rfl⟩ | ⟨-, hc⟩
    · exact Or.inl ⟨_, hk, hr.symm, hcaller.symm⟩
    · exact Or.inl ⟨c', hc, rfl, rfl⟩
  | createAdminKey => exact Or.inl ⟨c', hc, rfl, rfl⟩
  | createInvite hk | selectInvite hk | release hk | register hk | revoke hk =>
    rcases put_cases hc with ⟨rfl, rfl⟩ | ⟨-, hc⟩
    · exact Or.inl ⟨_, hk, rfl, rfl⟩
    · exact Or.inl ⟨c', hc, rfl, rfl⟩

/-- Nobody else gets in with a revoked key or, once there are keys, without one. -/
structure Shut (cfg : AuthConfig) (s s' : AuthState) : Prop where
  kept : s.KeysKept s'
  revoked : ∀ row ∈ s.keys, row.revoked = true → ∀ k isAdmin, s'.CalledBy k (.key row.id isAdmin) →
    s.CalledBy k (.key row.id isAdmin)
  intruded : s.keys ≠ [] → ∀ k, s'.Intruded cfg k → s.Intruded cfg k

theorem KeysKept.ne_nil (h : s.KeysKept s') (hs : s.keys ≠ []) : s'.keys ≠ [] := by
  obtain ⟨row, hrow⟩ := List.exists_mem_of_ne_nil _ hs
  obtain ⟨row', hrow', -⟩ := h row hrow
  exact List.ne_nil_of_mem hrow'

theorem Shut.trans {s'' : AuthState} (h : s.Shut cfg s') (h' : s'.Shut cfg s'') :
    s.Shut cfg s'' := by
  refine ⟨h.kept.trans h'.kept, fun row hrow hrevoked k isAdmin hc => ?_, fun hs k hin => ?_⟩
  · obtain ⟨row', hrow', hid, -, -, hrev⟩ := h.kept row hrow
    rw [← hid] at hc
    have hmid := h'.revoked row' hrow' (hrev hrevoked) k isAdmin hc
    rw [hid] at hmid
    exact h.revoked row hrow hrevoked k isAdmin hmid
  · exact h.intruded hs k (h'.intruded (h.kept.ne_nil hs) k hin)

theorem Moved.shut (hm : s.Moved cfg a s') (h : AuthInv cfg s) : s.Shut cfg s' := by
  refine ⟨hm.keysKept, ?_, ?_⟩
  · rintro row hrow hrevoked k isAdmin ⟨c', hc, hcaller⟩
    have hcases := hm.caller_cases hc
    rw [hcaller] at hcases
    rcases hcases with ⟨c, hk, -, hcc⟩ | hx | hx | ⟨hx, -⟩ | ⟨row', hrow', hrev, hx⟩
    · exact ⟨c, hk, hcc⟩
    · cases hx
    · cases hx
    · cases hx
    · obtain ⟨hid, -⟩ := Caller.key.inj (Option.some.inj hx)
      obtain rfl := List.inj_on_of_nodup_map h.keyIds hrow hrow' hid
      rw [hrevoked] at hrev
      cases hrev
  · rintro hs k ⟨c', hc, hpath, hcaller⟩
    have hcases := hm.caller_cases hc
    rw [hcaller] at hcases
    rcases hcases with ⟨c, hk, hr, hcc⟩ | hx | hx | ⟨-, hpub | he⟩ | ⟨row', -, -, hx⟩
    · exact ⟨c, hk, hr ▸ hpath, hcc⟩
    · cases hx
    · cases hx
    · exact absurd hpub hpath
    · exact absurd he hs
    · cases hx

end AuthState

/-! ## Main result -/

/-- **The `Host` header does not turn the path into a public one.** -/
def HttpRequest.Straight (cfg : AuthConfig) (r : HttpRequest) : Prop :=
  r.urlPath cfg ∈ publicPaths → r.endpoint.path ∈ publicPaths

instance (cfg : AuthConfig) (r : HttpRequest) : Decidable (r.Straight cfg) :=
  inferInstanceAs (Decidable (_ → _))

/-- Only straight requests arrive. -/
def AuthAct.Straight (cfg : AuthConfig) (a : AuthAct) : Prop :=
  match a with
  | .arrive _ r => r.Straight cfg
  | _ => True

instance (cfg : AuthConfig) (a : AuthAct) : Decidable (a.Straight cfg) :=
  match a with
  | .arrive _ r => inferInstanceAs (Decidable (r.Straight cfg))
  | .count _ | .lookUp _ | .createInvite .. | .selectInvite .. | .register .. | .findKey _
  | .revokeKey _ | .answer _ | .fail _ | .createAdminKey .. => inferInstanceAs (Decidable True)

/-- A header without a slash, a question mark and a number sign leaves the path as it is. -/
theorem rebuiltPath_plain {host path : String} (hh : ∀ x ∈ host.toList, endsHost x = false)
    (hs : path.toList.head? = some '/') (hp : ∀ x ∈ path.toList, endsPath x = false) :
    rebuiltPath (some host) path = path := by
  have hrest : (host.toList ++ path.toList).dropWhile (!endsHost ·) = path.toList := by
    rw [List.dropWhile_append_of_pos fun x hx => by rw [hh x hx]; rfl]
    obtain ⟨cs, hcs⟩ := List.head?_eq_some_iff.mp hs
    rw [hcs]
    rfl
  have hkeep : path.toList.takeWhile (!endsPath ·) = path.toList :=
    List.takeWhile_eq_self_iff.mpr fun x hx => by rw [hp x hx]; rfl
  rw [rebuiltPath, Option.getD_some, hrest, hkeep, String.ofList_toList]

theorem HttpRequest.straight_of_plain {r : HttpRequest} {host : String}
    (hcfg : cfg.urlPath = rebuiltPath) (hhost : r.host = some host)
    (hh : ∀ x ∈ host.toList, endsHost x = false) (hs : r.endpoint.path.toList.head? = some '/')
    (hp : ∀ x ∈ r.endpoint.path.toList, endsPath x = false) : r.Straight cfg := by
  intro hpub
  rwa [HttpRequest.urlPath, hcfg, hhost, rebuiltPath_plain hh hs hp] at hpub

theorem enter_request (cfg : AuthConfig) (r : HttpRequest) : (Exchange.enter cfg r).request = r := by
  unfold Exchange.enter
  split_ifs
  · rfl
  · rfl
  · exact (Exchange.authenticate_cases cfg r).1.1

/-- A request is straight as long as it lasts. -/
theorem AuthState.Moved.straight (hm : s.Moved cfg a s') (ha : a.Straight cfg)
    (h : ∀ k c, s.calls k = some c → c.request.Straight cfg) :
    ∀ k c, s'.calls k = some c → c.request.Straight cfg := by
  intro j c' hc
  cases hm with
  | @arrive k r hk =>
    rcases put_cases hc with ⟨-, rfl⟩ | ⟨-, hc⟩
    · rw [enter_request]
      exact ha
    · exact h j c' hc
  | @closedDoor k c hk =>
    rcases put_cases hc with ⟨-, rfl⟩ | ⟨-, hc⟩
    · rw [(Exchange.authenticate_cases cfg c.request).1.1]
      exact h k c hk
    · exact h j c' hc
  | goOn _ hk _ _ hr =>
    rcases put_cases hc with ⟨-, rfl⟩ | ⟨-, hc⟩
    · exact hr ▸ h _ _ hk
    · exact h j c' hc
  | createAdminKey => exact h j c' hc
  | openDoor hk | authorize hk | createInvite hk | selectInvite hk | release hk | register hk
  | revoke hk =>
    have hold := h _ _ hk
    rcases put_cases hc with ⟨-, rfl⟩ | ⟨-, hc⟩
    · exact hold
    · exact h j c' hc

/-- What keys and invites are good for, at the end of a run. -/
structure KeysTrusted (cfg : AuthConfig) (h : List (AuthState × AuthAct)) (s : AuthState) : Prop where
  minted : ∀ key ∈ s.keys, ¬ MadeByCli h key.id →
    key.isAdmin = false ∧ ∃! invite, ∃ e ∈ h, Mints cfg e invite key.id
  once : h.Pairwise (Apart cfg)
  invites : ∀ row ∈ s.invites, ∃ e ∈ h, Invites cfg e row.id
  revoked : ∀ e ∈ h, ∀ k, e.1.calls k = none → ∀ row ∈ e.1.keys, row.revoked = true →
    ∀ isAdmin, ¬ s.CalledBy k (.key row.id isAdmin)

/-- **Once there are keys, the door is closed**: a request that arrives later for a path that is not
public reaches its handler only with a key. -/
def DoorClosed (cfg : AuthConfig) (h : List (AuthState × AuthAct)) (s : AuthState) : Prop :=
  ∀ e ∈ h, ∀ k, e.1.calls k = none → e.1.keys ≠ [] → ∀ c, s.calls k = some c →
    c.request.endpoint.path ∉ publicPaths → c.phase.Inside → s.Authenticated cfg c

/-- **Main result.** Keys and invites are trusted in every run, and the door is closed in every run
of straight requests. -/
theorem keys_trusted {h : List (AuthState × AuthAct)} (hr : (authService cfg).Run h s) :
    KeysTrusted cfg h s ∧
      ((∀ e ∈ h, e.2.Straight cfg) → DoorClosed cfg h s) := by
  have hh := KeyHistory.of_run hr
  have hinv := AuthInv.of_run hr
  have hshut : ∀ e ∈ h, e.1.Shut cfg s :=
    hr.kept (R := AuthState.Shut cfg) (fun _ _ _ h₁ h₂ => h₁.trans h₂) fun _ _ _ _ hr' hs =>
      (AuthState.step_moved hs).shut (AuthInv.of_run hr')
  refine ⟨⟨fun key hkey hcli => ?_, hh.once, hh.invites, ?_⟩, fun hacts => ?_⟩
  · rcases hh.keys key hkey with ⟨-, hmade⟩ | ⟨hadmin, e, he, invite, hmint⟩
    · exact absurd hmade hcli
    · refine ⟨hadmin, invite, ⟨e, he, hmint⟩, ?_⟩
      rintro invite' ⟨e', he', hmint'⟩
      by_cases hee : e' = e
      · subst hee
        exact hmint'.invite_unique hmint
      · exact absurd rfl (hh.once.forall he' he hee invite' key.id invite key.id hmint' hmint).2
  · rintro e he k hk row hrow hrevoked isAdmin hcalled
    obtain ⟨c, hc, -⟩ := (hshut e he).revoked row hrow hrevoked k isAdmin hcalled
    rw [hk] at hc
    cases hc
  · have hstraight : ∀ k c, s.calls k = some c → c.request.Straight cfg :=
      hr.invariant (P := fun s => ∀ k c, s.calls k = some c → c.request.Straight cfg)
        (fun _ _ hc => by cases hc) (fun _ _ _ h ha hs => (AuthState.step_moved hs).straight ha h)
        hacts
    intro e he k hk hkeys c hc hpath hin
    refine (hinv.admitted k c hc).authenticated (hinv.inside k c hc hin) fun hanon => ?_
    obtain ⟨c₀, hc₀, -⟩ := (hshut e he).intruded hkeys k
      ⟨c, hc, fun hpub => hpath (hstraight k c hc hpub), hanon⟩
    rw [hk] at hc₀
    cases hc₀

/-! ## A key that is made, used and revoked -/

section Example

/-- No static key; texts are their own hashes. -/
def plainConfig : AuthConfig where
  hashKey := id
  uuid := fun text => if text = "2" then some 2 else none
  urlPath := rebuiltPath

/-- A request to this host, for a path without an endpoint of its own. -/
def asksFor (host path : String) (authorization : Option String) : HttpRequest where
  endpoint := .other path
  authorization := authorization
  host := some host

/-- Two requests try to register with one invite. -/
def inviteActs : List AuthAct :=
  [.createAdminKey "root" 1 "admin",
    .arrive 0 { endpoint := .createInvite "ann", authorization := some "Bearer root" },
    .count 0, .lookUp 0, .createInvite 0 "invite" 1 0,
    .arrive 1 { endpoint := .register "invite" }, .arrive 2 { endpoint := .register "invite" },
    .selectInvite 1 5, .register 1 "key" 2 5, .selectInvite 2 6,
    .arrive 3 { endpoint := .revokeKey "2", authorization := some "Bearer root" },
    .count 3, .lookUp 3, .findKey 3, .revokeKey 3,
    .arrive 4 (asksFor "engine:8000" "/api/workflows" (some "Bearer key")),
    .count 4, .lookUp 4]

theorem inviteActs_straight : ∀ a ∈ inviteActs, a.Straight plainConfig := by decide +kernel

theorem keys_trusted_invite : ∃ h s, (authService plainConfig).Run h s ∧
    s.keys.map (fun row => (row.id, row.isAdmin, row.revoked)) =
      [(1, true, false), (2, false, true)] ∧
    KeysTrusted plainConfig h s ∧ DoorClosed plainConfig h s := by
  have he : (authService plainConfig).exec inviteActs [] {} = some (_, _) := rfl
  have hr := System.run_exec .init he
  refine ⟨_, _, hr, rfl, (keys_trusted hr).1, (keys_trusted hr).2 fun e hmem => ?_⟩
  have hacts : e.2 ∈ inviteActs := by
    have := List.mem_map_of_mem (f := Prod.snd) hmem
    rw [System.exec_actions he] at this
    simpa using this
  exact inviteActs_straight e.2 hacts

/-- There is a key. -/
def rootOnly : AuthState where
  keys := [{ id := 1, keyHash := "root", label := "admin", isAdmin := true }]

/-- **A `Host` header opens the door**: there is a key, and without one a request reaches the handler
of a path that is not public. -/
theorem host_opens : plainConfig.apiKey = "" ∧ ∃ h s, (authService plainConfig).Run h s ∧
    (∃ c, s.calls 0 = some c ∧ c.request = asksFor "x/api/health?" "/api/workflows" none ∧
      c.phase = .handling) ∧ ¬ DoorClosed plainConfig h s := by
  have hroot : (authService plainConfig).Run [({}, .createAdminKey "root" 1 "admin")] rootOnly :=
    .step .init rfl
  have henter : Exchange.enter plainConfig (asksFor "x/api/health?" "/api/workflows" none) =
      ⟨asksFor "x/api/health?" "/api/workflows" none, .handling, some .anonymous⟩ :=
    if_pos (by decide +kernel)
  have hstep : (authService plainConfig).step rootOnly
      (.arrive 0 (asksFor "x/api/health?" "/api/workflows" none)) = some (rootOnly.put 0
        ⟨asksFor "x/api/health?" "/api/workflows" none, .handling, some .anonymous⟩) :=
    congrArg (fun c => some (rootOnly.put 0 c)) henter
  have hcall := AuthState.put_self rootOnly 0
    ⟨asksFor "x/api/health?" "/api/workflows" none, .handling, some .anonymous⟩
  refine ⟨rfl, _, _, hroot.step hstep, ⟨_, hcall, rfl, rfl⟩, fun hclosed => ?_⟩
  have hauth := hclosed _ List.mem_cons_self 0 rfl (List.cons_ne_nil _ _) _ hcall
    (by decide +kernel) trivial
  rcases hauth with ⟨hlegacy, -⟩ | ⟨token, htoken, -⟩
  · cases hlegacy
  · cases htoken

end Example

end ScoutEngine
