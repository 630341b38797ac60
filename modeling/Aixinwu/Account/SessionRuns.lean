import Aixinwu.Account.Sessions
import Aixinwu.Core.Nodes

/-!
# Which tokens are accepted

A token is accepted as long as the key it names is that of the user it names. Keys are random, so
an invariant links them to what has been given out: the key in a token is that of a user exactly if
the token was made for this user since the key was drawn (`Sound.current_iff`). It needs all the
rest of `Sound`: that users do not share a key, and that a new key is in no token yet.

From it follow which tokens are accepted (**`loadUserFromRequest_run_iff`**), that deactivated ones
never are again (**`deactivated_run`**), and, since only a login gives a refresh token and
refreshing gives none, that requests can be made for a limited time after a login
(**`accepted_after_login`**).
A token for an app can be got with a token for an app, so nothing of the kind holds for these.

## Main definitions

* `Request.tokens`, `Request.links`, `Served.Ok` — what is asked of the requests
* `Sound` — the invariant
* `Accepted`

## Main results

* `sound_effect`, `sound_reached`
* `loadUserFromRequest_run_iff`, `deactivated_run`, `accepted_after_login`
-/

namespace Aixinwu

namespace Sessions

open Account (updateContinuousDays CONTINUOUS_BALANCE_ADD defaultBalance)
open Runs

/-! ### Going on -/

@[simp] theorem ensure_eq_ok {b : Bool} {e : Failure} {x : Unit} :
    ensure b e = .ok x ↔ b = true := by
  cases b <;> simp [ensure]

@[simp] theorem demand_eq_ok {α : Type*} {a : Option α} {e : Failure} {x : α} :
    demand a e = .ok x ↔ a = some x := by
  cases a <;> simp [demand]

variable {τ η : Type}

/-! ### The conditions on requests -/

/-- The tokens that come with a request. -/
def Request.tokens : Request τ η → List τ
  | .tokenRefresh refreshToken cookie _ => refreshToken.join.toList ++ cookie.toList
  | .tokensDeactivateAll auth => auth.toList
  | .appAccessToken auth _ _ => auth.toList
  | .passwordChange auth _ _ => auth.toList
  | .requestEmailChange auth _ _ _ _ => auth.toList
  | .confirmEmailChange auth token => auth.toList ++ [token]
  | .sendConfirmationEmail auth _ _ => auth.toList
  | .accountRequestDeletion auth _ _ => auth.toList
  | .accountDelete auth _ => auth.toList
  | _ => []

/-- The links that come with a request. -/
def Request.links : Request τ η → List (LinkToken η)
  | .setPassword _ _ token => [token]
  | .confirmAccount _ token => [token]
  | .accountDelete _ token => [token]
  | _ => []

/-- Whether a request is made with the permission `MANAGE_USERS`. -/
def Request.byStaff : Request τ η → Bool
  | .customerUpdate granted _ _ _ _ => granted
  | .customerDelete granted _ _ => granted
  | _ => false

variable (env : Env τ η)

/-- A signed token is one that was made. -/
def Unforged (s : State τ) (token : τ) : Prop := env.jwt.signed token = true → token ∈ s.made

/-- The clock does not go back, what is drawn is new, and nobody else signs or hashes. -/
structure Served.Ok (s : State τ) (e : Served τ η) : Prop where
  later : s.now ≤ e.now
  key_ne : e.key ≠ ""
  key_new : e.key ∉ s.keys
  salt_new : ∀ raw, env.makePassword raw e.salt ∉ s.passwords
  unforged : ∀ t ∈ e.request.tokens, Unforged env s t
  links_sent : ∀ l ∈ e.request.links, ∀ v, env.linkHash v = l.hash → v ∈ s.links

/-! ### The invariant -/

/-- The token is good for at most as long after some login of the user. -/
def WithinLogin (s : State τ) (k : ℕ) (p : Payload) (ttl : Time) : Prop :=
  ∃ login ∈ s.logins k, ∃ exp, p.exp = some exp ∧ exp * 1000000 ≤ login + ttl

/-- What links keys to what has been given out. -/
structure Sound (s : State τ) : Prop where
  lt_nextPk : ∀ u ∈ s.users, u.pk < s.nextPk
  email_inj : ∀ u ∈ s.users, ∀ v ∈ s.users, u.email = v.email → u.pk = v.pk
  key_mem : ∀ u ∈ s.users, u.jwtTokenKey ∈ s.keys
  key_inj : ∀ u ∈ s.users, ∀ v ∈ s.users, u.jwtTokenKey = v.jwtTokenKey → u.pk = v.pk
  key_ne : ∀ key ∈ s.keys, key ≠ ""
  made : ∀ t ∈ s.made, ∃ p, t = env.jwt.encode p ∧ p.owner = JWT_SALEOR_OWNER_NAME ∧
    ∀ key, p.token = some key → key ∈ s.keys
  current_made : ∀ k, ∀ t ∈ s.current k, t ∈ s.made
  current_iff : ∀ u ∈ s.users, ∀ p, env.jwt.encode p ∈ s.made →
    (env.jwt.encode p ∈ s.current u.pk ↔ p.token = some u.jwtTokenKey)
  current_new : ∀ k, s.nextPk ≤ k → s.current k = []
  refresh : ∀ k p, env.jwt.encode p ∈ s.current k → p.type = some .refresh →
    WithinLogin s k p env.ttlRefresh
  access : ∀ k p, env.jwt.encode p ∈ s.current k → p.type = some .access →
    WithinLogin s k p (env.ttlRefresh + env.ttlAccess)

variable {env} {s s' : State τ} {e : Served τ η}

theorem encode_injective : Function.Injective env.jwt.encode := by
  intro p q h
  have hp := env.jwt.payload_encode p
  rw [h, env.jwt.payload_encode q] at hp
  exact (Option.some.inj hp).symm

theorem mem_modify {k : ℕ} {f : User → User} {hf : ∀ u, (f u).pk = u.pk} {v : User} :
    v ∈ (s.modify k f hf).users ↔ ∃ u ∈ s.users, (if u.pk = k then f u else u) = v := by
  rw [Table.mem_def, State.modify, Table.modify, Table.rows_map, List.mem_map]
  rfl

theorem pk_modified {k : ℕ} {f : User → User} (hf : ∀ u, (f u).pk = u.pk) (u : User) :
    (if u.pk = k then f u else u).pk = u.pk := by
  split
  · exact hf u
  · rfl

theorem current_issue (k j : ℕ) (t : τ) :
    (s.issue k t).current j = if j = k then s.current k ++ [t] else s.current j :=
  Function.update_apply ..

theorem logins_login (k j : ℕ) :
    (s.login k).logins j = if j = k then s.logins k ++ [s.now] else s.logins j :=
  Function.update_apply ..

theorem current_rekey (k j : ℕ) (key : String) :
    (s.rekey k key).current j = if j = k then [] else s.current j :=
  Function.update_apply ..

theorem logins_rekey (k j : ℕ) (key : String) :
    (s.rekey k key).logins j = if j = k then [] else s.logins j :=
  Function.update_apply ..

theorem users_rekey (k : ℕ) (key : String) : (s.rekey k key).users
    = (s.modify k (fun row => { row with jwtTokenKey := key }) fun _ => rfl).users := rfl

theorem users_setPassword (k : ℕ) (password : String) : (s.setPassword k password).users
    = (s.modify k (fun row => { row with password }) fun _ => rfl).users := rfl

theorem users_loggedIn (u : User) (audience : Option String) (csrf : String) :
    (loggedIn env s u audience csrf).users
      = (s.modify u.pk (fun row => { row with lastLogin := s.now }) fun _ => rfl).users := rfl

/-! ### What is done to a state -/

namespace Sound

/-- There are no users, and nothing has been given out. -/
theorem empty (nextPk : ℕ) (now : Time) : Sound env { users := .empty, nextPk, now } := by
  have hnone : ∀ u : User, u ∉ (Table.empty : Table User) := fun _ => List.not_mem_nil
  refine ⟨fun u hu => absurd hu (hnone u), fun u hu => absurd hu (hnone u),
    fun u hu => absurd hu (hnone u), fun u hu => absurd hu (hnone u),
    fun _ hkey => absurd hkey List.not_mem_nil, fun _ ht => absurd ht List.not_mem_nil,
    fun _ _ ht => absurd ht List.not_mem_nil, fun u hu => absurd hu (hnone u), fun _ _ => rfl,
    fun _ _ hp => absurd hp List.not_mem_nil, fun _ _ hp => absurd hp List.not_mem_nil⟩

/-- A row is changed, but not the key, and an address only to a new one. -/
theorem modify (h : Sound env s) (k : ℕ) (f : User → User) (hf : ∀ u, (f u).pk = u.pk)
    (hkey : ∀ u, (f u).jwtTokenKey = u.jwtTokenKey)
    (hemail : ∀ u ∈ s.users, u.pk = k →
      (f u).email = u.email ∨ ∀ v ∈ s.users, v.email ≠ (f u).email) :
    Sound env (s.modify k f hf) := by
  have hpk : ∀ u : User, (if u.pk = k then f u else u).pk = u.pk := pk_modified hf
  have hsame : ∀ u : User, (if u.pk = k then f u else u).jwtTokenKey = u.jwtTokenKey := fun u => by
    split
    · exact hkey u
    · rfl
  refine ⟨fun v hv => ?_, fun v hv w hw heq => ?_, fun v hv => ?_, fun v hv w hw heq => ?_,
    h.key_ne, h.made, h.current_made, fun v hv => ?_, h.current_new, h.refresh, h.access⟩
  · obtain ⟨u, hu, rfl⟩ := mem_modify.mp hv
    exact (hpk u).symm ▸ h.lt_nextPk u hu
  · obtain ⟨u, hu, rfl⟩ := mem_modify.mp hv
    obtain ⟨u', hu', rfl⟩ := mem_modify.mp hw
    rw [hpk, hpk]
    by_cases huk : u.pk = k <;> by_cases huk' : u'.pk = k
    · exact huk.trans huk'.symm
    · rw [if_pos huk, if_neg huk'] at heq
      rcases hemail u hu huk with hkeep | hnew
      · exact h.email_inj u hu u' hu' (hkeep.symm.trans heq)
      · exact absurd heq.symm (hnew u' hu')
    · rw [if_neg huk, if_pos huk'] at heq
      rcases hemail u' hu' huk' with hkeep | hnew
      · exact h.email_inj u hu u' hu' (heq.trans hkeep)
      · exact absurd heq (hnew u hu)
    · rw [if_neg huk, if_neg huk'] at heq
      exact h.email_inj u hu u' hu' heq
  · obtain ⟨u, hu, rfl⟩ := mem_modify.mp hv
    exact (hsame u).symm ▸ h.key_mem u hu
  · obtain ⟨u, hu, rfl⟩ := mem_modify.mp hv
    obtain ⟨u', hu', rfl⟩ := mem_modify.mp hw
    rw [hsame, hsame] at heq
    rw [hpk, hpk]
    exact h.key_inj u hu u' hu' heq
  · obtain ⟨u, hu, rfl⟩ := mem_modify.mp hv
    rw [hpk, hsame]
    exact h.current_iff u hu

/-- Columns that are not looked at. -/
theorem touch (h : Sound env s) (k : ℕ) (f : User → User) (hf : ∀ u, (f u).pk = u.pk)
    (hsame : ∀ u, (f u).credentials = u.credentials) : Sound env (s.modify k f hf) :=
  h.modify k f hf (fun u => congrArg Credentials.jwtTokenKey (hsame u))
    fun u _ _ => .inl (congrArg Credentials.email (hsame u))

theorem send (h : Sound env s) (v : LinkValue) : Sound env (s.send v) :=
  ⟨h.lt_nextPk, h.email_inj, h.key_mem, h.key_inj, h.key_ne, h.made, h.current_made, h.current_iff,
    h.current_new, h.refresh, h.access⟩

theorem setNow (h : Sound env s) (now : Time) : Sound env { s with now } :=
  ⟨h.lt_nextPk, h.email_inj, h.key_mem, h.key_inj, h.key_ne, h.made, h.current_made, h.current_iff,
    h.current_new, h.refresh, h.access⟩

theorem login (h : Sound env s) (k : ℕ) : Sound env (s.login k) := by
  have hlogins : ∀ j, ∀ l ∈ s.logins j, l ∈ (s.login k).logins j := by
    intro j l hl
    rw [logins_login]
    split
    · rename_i hj
      exact List.mem_append_left _ (hj ▸ hl)
    · exact hl
  refine ⟨h.lt_nextPk, h.email_inj, h.key_mem, h.key_inj, h.key_ne, h.made, h.current_made,
    h.current_iff, h.current_new, fun j p hp ht => ?_, fun j p hp ht => ?_⟩
  · obtain ⟨l, hl, hexp⟩ := h.refresh j p hp ht
    exact ⟨l, hlogins j l hl, hexp⟩
  · obtain ⟨l, hl, hexp⟩ := h.access j p hp ht
    exact ⟨l, hlogins j l hl, hexp⟩

/-- A token with the key of the user it is for. -/
theorem issue (h : Sound env s) {u : User} (hu : u ∈ s.users) {p : Payload}
    (howner : p.owner = JWT_SALEOR_OWNER_NAME) (hkey : p.token = some u.jwtTokenKey)
    (hrefresh : p.type = some .refresh → WithinLogin s u.pk p env.ttlRefresh)
    (haccess : p.type = some .access → WithinLogin s u.pk p (env.ttlRefresh + env.ttlAccess)) :
    Sound env (s.issue u.pk (env.jwt.encode p)) := by
  have hmem : ∀ k q, env.jwt.encode q ∈ (s.issue u.pk (env.jwt.encode p)).current k ↔
      env.jwt.encode q ∈ s.current k ∨ k = u.pk ∧ q = p := by
    intro k q
    rw [current_issue]
    split
    · rename_i hk
      rw [List.mem_append, List.mem_singleton, encode_injective.eq_iff, hk]
      exact or_congr_right (and_iff_right rfl).symm
    · rename_i hk
      exact (or_iff_left fun hand => hk hand.1).symm
  refine ⟨h.lt_nextPk, h.email_inj, h.key_mem, h.key_inj, h.key_ne, fun t ht => ?_,
    fun k t ht => ?_, fun v hv q hq => ?_, fun k hk => ?_, fun k q hq ht => ?_, fun k q hq ht => ?_⟩
  · rcases List.mem_append.mp ht with ht | ht
    · exact h.made t ht
    · refine ⟨p, List.mem_singleton.mp ht, howner, fun key heq => ?_⟩
      rw [← Option.some.inj (hkey.symm.trans heq)]
      exact h.key_mem u hu
  · rw [current_issue] at ht
    split at ht
    · rename_i hk
      rcases List.mem_append.mp ht with ht | ht
      · exact List.mem_append_left _ (h.current_made _ t ht)
      · exact List.mem_append_right _ ht
    · exact List.mem_append_left _ (h.current_made k t ht)
  · rw [hmem]
    by_cases hqp : q = p
    · subst hqp
      rw [hkey]
      constructor
      · rintro (hold | ⟨hpk, -⟩)
        · exact hkey.symm.trans ((h.current_iff v hv q (h.current_made _ _ hold)).mp hold)
        · rw [Table.eq_of_pk_eq hv hu hpk]
      · intro heq
        exact .inr ⟨h.key_inj v hv u hu (Option.some.inj heq).symm, rfl⟩
    · rcases List.mem_append.mp hq with hold | hnew
      · rw [or_iff_left fun hand => hqp hand.2]
        exact h.current_iff v hv q hold
      · exact absurd (encode_injective (List.mem_singleton.mp hnew)) hqp
  · have hlt := h.lt_nextPk u hu
    have hne : k ≠ u.pk := fun heq => absurd hk (not_le.mpr (heq ▸ hlt))
    exact (Function.update_of_ne hne ..).trans (h.current_new k hk)
  · rcases (hmem k q).mp hq with hold | ⟨rfl, rfl⟩
    · exact h.refresh k q hold ht
    · exact hrefresh ht
  · rcases (hmem k q).mp hq with hold | ⟨rfl, rfl⟩
    · exact h.access k q hold ht
    · exact haccess ht

/-- A token without a key. -/
theorem issueOther (h : Sound env s) {p : Payload} (howner : p.owner = JWT_SALEOR_OWNER_NAME)
    (hkey : p.token = none) : Sound env (s.issueOther (env.jwt.encode p)) := by
  refine ⟨h.lt_nextPk, h.email_inj, h.key_mem, h.key_inj, h.key_ne, fun t ht => ?_,
    fun k t ht => List.mem_append_left _ (h.current_made k t ht), fun v hv q hq => ?_,
    h.current_new, h.refresh, h.access⟩
  · rcases List.mem_append.mp ht with ht | ht
    · exact h.made t ht
    · refine ⟨p, List.mem_singleton.mp ht, howner, fun key heq => ?_⟩
      rw [hkey] at heq
      cases heq
  · rcases List.mem_append.mp hq with hold | hnew
    · exact h.current_iff v hv q hold
    · rw [encode_injective (List.mem_singleton.mp hnew), hkey]
      refine iff_of_false (fun hin => ?_) (Option.some_ne_none _).symm
      have heq := (h.current_iff v hv p (h.current_made _ _ hin)).mp hin
      rw [hkey] at heq
      cases heq

/-- The key changes to one that is new. -/
theorem rekey (h : Sound env s) (k : ℕ) {key : String} (hne : key ≠ "") (hnew : key ∉ s.keys) :
    Sound env (s.rekey k key) := by
  have hmem : ∀ {v}, v ∈ (s.rekey k key).users ↔
      ∃ u ∈ s.users, (if u.pk = k then { u with jwtTokenKey := key } else u) = v := by
    intro v
    rw [users_rekey, mem_modify]
  have hpk : ∀ u : User, (if u.pk = k then { u with jwtTokenKey := key } else u).pk = u.pk :=
    pk_modified fun _ => rfl
  have hemail : ∀ u : User,
      (if u.pk = k then { u with jwtTokenKey := key } else u).email = u.email := by
    intro u
    split <;> rfl
  have hold : ∀ u ∈ s.users, u.jwtTokenKey ≠ key := fun u hu heq => hnew (heq ▸ h.key_mem u hu)
  have hkeys : (s.rekey k key).keys = s.keys ++ [key] := rfl
  refine ⟨fun v hv => ?_, fun v hv w hw heq => ?_, fun v hv => ?_, fun v hv w hw heq => ?_,
    fun key' hkey' => ?_, fun t ht => ?_, fun j t ht => ?_, fun v hv p hp => ?_, fun j hj => ?_,
    fun j p hp ht => ?_, fun j p hp ht => ?_⟩
  · obtain ⟨u, hu, rfl⟩ := hmem.mp hv
    exact (hpk u).symm ▸ h.lt_nextPk u hu
  · obtain ⟨u, hu, rfl⟩ := hmem.mp hv
    obtain ⟨u', hu', rfl⟩ := hmem.mp hw
    rw [hemail, hemail] at heq
    rw [hpk, hpk]
    exact h.email_inj u hu u' hu' heq
  · obtain ⟨u, hu, rfl⟩ := hmem.mp hv
    rw [hkeys]
    split
    · exact List.mem_append_right _ (List.mem_singleton_self key)
    · exact List.mem_append_left _ (h.key_mem u hu)
  · obtain ⟨u, hu, rfl⟩ := hmem.mp hv
    obtain ⟨u', hu', rfl⟩ := hmem.mp hw
    rw [hpk, hpk]
    by_cases huk : u.pk = k <;> by_cases huk' : u'.pk = k
    · exact huk.trans huk'.symm
    · rw [if_pos huk, if_neg huk'] at heq
      exact absurd heq.symm (hold u' hu')
    · rw [if_neg huk, if_pos huk'] at heq
      exact absurd heq (hold u hu)
    · rw [if_neg huk, if_neg huk'] at heq
      exact h.key_inj u hu u' hu' heq
  · rcases List.mem_append.mp hkey' with hkey' | hkey'
    · exact h.key_ne key' hkey'
    · exact List.mem_singleton.mp hkey' ▸ hne
  · obtain ⟨p, hp, howner, hkey⟩ := h.made t ht
    exact ⟨p, hp, howner, fun key' heq => List.mem_append_left _ (hkey key' heq)⟩
  · rw [current_rekey] at ht
    split at ht
    · cases ht
    · exact h.current_made j t ht
  · obtain ⟨u, hu, rfl⟩ := hmem.mp hv
    rw [hpk, current_rekey]
    by_cases huk : u.pk = k
    · rw [if_pos huk, if_pos huk]
      refine iff_of_false List.not_mem_nil fun heq => ?_
      obtain ⟨q, hq, -, hkey⟩ := h.made _ hp
      exact hnew (hkey key (encode_injective hq ▸ heq))
    · rw [if_neg huk, if_neg huk]
      exact h.current_iff u hu p hp
  · rw [current_rekey]
    split
    · rfl
    · exact h.current_new j hj
  · rw [current_rekey] at hp
    split at hp
    · cases hp
    · rename_i hj
      obtain ⟨l, hl, hexp⟩ := h.refresh j p hp ht
      exact ⟨l, by rwa [logins_rekey, if_neg hj], hexp⟩
  · rw [current_rekey] at hp
    split at hp
    · cases hp
    · rename_i hj
      obtain ⟨l, hl, hexp⟩ := h.access j p hp ht
      exact ⟨l, by rwa [logins_rekey, if_neg hj], hexp⟩

theorem setPassword (h : Sound env s) (k : ℕ) (password : String) :
    Sound env (s.setPassword k password) := by
  have hmodify : Sound env (s.modify k (fun row => { row with password }) fun _ => rfl) :=
    h.modify k _ _ (fun _ => rfl) fun _ _ _ => .inl rfl
  exact ⟨hmodify.lt_nextPk, hmodify.email_inj, hmodify.key_mem, hmodify.key_inj, hmodify.key_ne,
    hmodify.made, hmodify.current_made, hmodify.current_iff, hmodify.current_new, hmodify.refresh,
    hmodify.access⟩

/-- Another user, with an address and a key that are new. -/
theorem insertUser (h : Sound env s) {u : User} {users : Table User}
    (hinsert : s.users.insert u = some users) (hpk : u.pk = s.nextPk)
    (hemail : ∀ v ∈ s.users, v.email ≠ u.email) (hne : u.jwtTokenKey ≠ "")
    (hnew : u.jwtTokenKey ∉ s.keys) : Sound env (s.insertUser u users) := by
  have hmem : ∀ {v}, v ∈ (s.insertUser u users).users ↔ v ∈ s.users ∨ v = u := by
    intro v
    rw [Table.mem_def, State.insertUser, (Table.insert_eq_some hinsert).1, List.mem_append,
      List.mem_singleton]
    rfl
  have hold : ∀ v ∈ s.users, v.jwtTokenKey ≠ u.jwtTokenKey := fun v hv heq =>
    hnew (heq ▸ h.key_mem v hv)
  refine ⟨fun v hv => ?_, fun v hv w hw heq => ?_, fun v hv => ?_, fun v hv w hw heq => ?_,
    fun key' hkey' => ?_, fun t ht => ?_, h.current_made, fun v hv p hp => ?_,
    fun j hj => h.current_new j ((Nat.le_succ _).trans hj), h.refresh, h.access⟩
  · rcases hmem.mp hv with hv | rfl
    · exact (h.lt_nextPk v hv).trans (Nat.lt_succ_self _)
    · exact hpk ▸ Nat.lt_succ_self _
  · rcases hmem.mp hv with hvold | rfl <;> rcases hmem.mp hw with hwold | rfl
    · exact h.email_inj v hvold w hwold heq
    · exact absurd heq (hemail v hvold)
    · exact absurd heq.symm (hemail w hwold)
    · rfl
  · rcases hmem.mp hv with hv | rfl
    · exact List.mem_append_left _ (h.key_mem v hv)
    · exact List.mem_append_right _ (List.mem_singleton_self _)
  · rcases hmem.mp hv with hvold | rfl <;> rcases hmem.mp hw with hwold | rfl
    · exact h.key_inj v hvold w hwold heq
    · exact absurd heq (hold v hvold)
    · exact absurd heq.symm (hold w hwold)
    · rfl
  · rcases List.mem_append.mp hkey' with hkey' | hkey'
    · exact h.key_ne key' hkey'
    · exact List.mem_singleton.mp hkey' ▸ hne
  · obtain ⟨p, hp, howner, hkey⟩ := h.made t ht
    exact ⟨p, hp, howner, fun key' heq => List.mem_append_left _ (hkey key' heq)⟩
  · rcases hmem.mp hv with hv | rfl
    · exact h.current_iff v hv p hp
    · have hnone : (s.insertUser v users).current v.pk = [] := h.current_new _ hpk.ge
      rw [hnone]
      refine iff_of_false List.not_mem_nil fun heq => ?_
      obtain ⟨q, hq, -, hkey⟩ := h.made _ hp
      exact hnew (hkey v.jwtTokenKey (encode_injective hq ▸ heq))

theorem deleteUser (h : Sound env s) (k : ℕ) : Sound env (s.deleteUser k) := by
  have hmem : ∀ {v}, v ∈ (s.deleteUser k).users → v ∈ s.users := fun hv =>
    (Table.mem_delete.mp hv).1
  exact ⟨fun v hv => h.lt_nextPk v (hmem hv),
    fun v hv w hw => h.email_inj v (hmem hv) w (hmem hw), fun v hv => h.key_mem v (hmem hv),
    fun v hv w hw => h.key_inj v (hmem hv) w (hmem hw), h.key_ne, h.made, h.current_made,
    fun v hv => h.current_iff v (hmem hv), h.current_new, h.refresh, h.access⟩

end Sound

/-! ### Who is asking -/

/-- A token that stands for a user: it was made since the key was drawn, it is for requests, it has
not expired, and the address is that of the user, who is active. -/
structure Accepted (env : Env τ η) (s : State τ) (t : τ) (u : User) (p : Payload) : Prop where
  payload : env.jwt.payload t = some p
  signed : env.jwt.signed t = true
  mem : u ∈ s.users
  current : t ∈ s.current u.pk
  active : u.isActive = true
  email : p.email = some u.email
  type : p.type = some .access ∨ p.type = some .thirdparty
  fresh : ∀ exp, p.exp = some exp → seconds s.now < exp

/-- What is decoded was made. -/
theorem jwtDecode_eq_ok (h : Sound env s) {t : τ} (hun : Unforged env s t) {p : Payload} :
    jwtDecode env s.now t = .ok p ↔ env.jwt.payload t = some p ∧ env.jwt.signed t = true ∧
      t = env.jwt.encode p ∧ t ∈ s.made ∧ ∀ exp, p.exp = some exp → seconds s.now < exp := by
  rw [jwtDecode]
  cases hpayload : env.jwt.payload t with
  | none => exact iff_of_false nofun nofun
  | some q =>
    dsimp only
    cases hsigned : env.jwt.signed t with
    | false => exact iff_of_false nofun nofun
    | true =>
      obtain ⟨q', rfl, -⟩ := h.made t (hun hsigned)
      obtain rfl := Option.some.inj ((env.jwt.payload_encode q').symm.trans hpayload)
      rw [Bool.not_true, if_neg Bool.false_ne_true]
      cases hexp : q'.exp with
      | none =>
        refine ⟨fun heq => ?_, fun hand => ?_⟩
        · obtain rfl := Except.ok.inj heq
          exact ⟨rfl, rfl, rfl, hun hsigned, fun exp heq => by rw [hexp] at heq; cases heq⟩
        · rw [Option.some.inj hand.1]
          rfl
      | some exp =>
        by_cases hle : exp ≤ seconds s.now
        · rw [Option.any_some, decide_eq_true hle, if_pos rfl]
          refine iff_of_false nofun fun ⟨heq, _, _, _, hfresh⟩ => ?_
          exact absurd (hfresh exp (Option.some.inj heq ▸ hexp)) (not_lt.mpr hle)
        · rw [Option.any_some, decide_eq_false hle, if_neg Bool.false_ne_true]
          refine ⟨fun heq => ?_, fun hand => ?_⟩
          · obtain rfl := Except.ok.inj heq
            refine ⟨rfl, rfl, rfl, hun hsigned, fun exp' heq => ?_⟩
            rw [← Option.some.inj (hexp.symm.trans heq)]
            exact not_le.mp hle
          · rw [Option.some.inj hand.1]

/-- The active user with an address. -/
theorem find?_email {email : String} {u : User} (h : Sound env s) :
    (s.users.rows.find? fun u => decide (u.email = email) && u.isActive) = some u ↔
      u ∈ s.users ∧ u.email = email ∧ u.isActive = true := by
  constructor
  · intro hfind
    have hcond := List.find?_some hfind
    rw [Bool.and_eq_true, decide_eq_true_eq] at hcond
    exact ⟨List.mem_of_find?_eq_some hfind, hcond⟩
  · rintro ⟨hmem, hemail, hactive⟩
    refine Nodes.find?_eq_some_of_unique hmem ?_ fun v hv hcond => ?_
    · rw [decide_eq_true hemail, hactive]
      rfl
    · rw [Bool.and_eq_true, decide_eq_true_eq] at hcond
      exact Table.eq_of_pk_eq hv hmem (h.email_inj v hv u hmem (hcond.1.trans hemail.symm))

/-- **Who is asking**: exactly the tokens that stand for a user are accepted, as that user. -/
theorem loadUserFromRequest_eq_ok (h : Sound env s) {t : τ} (hun : Unforged env s t)
    {u' : User} : loadUserFromRequest env s (some t) = .ok (some u') ↔
      ∃ u p, Accepted env s t u p ∧ u' = u.delegated p := by
  rw [loadUserFromRequest]
  constructor
  · intro hok
    split at hok
    · cases hok
    split at hok
    · cases hok
    · cases hok
    · rename_i p hdecode
      obtain ⟨hpayload, hsigned, rfl, hmade, hfresh⟩ := (jwtDecode_eq_ok h hun).mp hdecode
      obtain ⟨_, htype, hok⟩ := exists_of_bind_eq_ok hok
      obtain ⟨email, hemail, hok⟩ := exists_of_bind_eq_ok hok
      obtain ⟨key, hkey, hok⟩ := exists_of_bind_eq_ok hok
      obtain ⟨u, hu, hok⟩ := exists_of_bind_eq_ok hok
      obtain ⟨_, hsame, hdone⟩ := exists_of_bind_eq_ok hok
      rw [demand_eq_ok] at hemail hkey hu
      rw [ensure_eq_ok] at htype hsame
      obtain ⟨hmem, rfl, hactive⟩ := (find?_email h).mp hu
      obtain ⟨hkey, -⟩ := Option.filter_eq_some_iff.mp hkey
      rw [← of_decide_eq_true hsame] at hkey
      have hcurrent := (h.current_iff u hmem p hmade).mpr hkey
      refine ⟨u, p, ⟨hpayload, hsigned, hmem, hcurrent, hactive, hemail, ?_, hfresh⟩,
        (Option.some.inj (Except.ok.inj hdone)).symm⟩
      simpa using htype
  · rintro ⟨u, p, ha, rfl⟩
    have hmade := h.current_made _ _ ha.current
    obtain ⟨q, rfl, howner, -⟩ := h.made t hmade
    obtain rfl := Option.some.inj ((env.jwt.payload_encode q).symm.trans ha.payload)
    have hkey := (h.current_iff u ha.mem q hmade).mp ha.current
    have hdecode := (jwtDecode_eq_ok h hun).mpr ⟨ha.payload, ha.signed, rfl, hmade, ha.fresh⟩
    have hsaleor : isSaleorToken env (env.jwt.encode q) = true := by
      rw [isSaleorToken, ha.payload, Option.any_some, decide_eq_true howner]
    have htype : (decide (q.type = some .access) || decide (q.type = some .thirdparty)) = true := by
      rcases ha.type with htype | htype <;> rw [htype] <;> rfl
    have hne : u.jwtTokenKey ≠ "" := h.key_ne _ (h.key_mem u ha.mem)
    have hfind := (find?_email h).mpr ⟨ha.mem, rfl, ha.active⟩
    rw [hsaleor, hdecode, Bool.not_true, if_neg Bool.false_ne_true]
    dsimp only
    rw [htype, ha.email, hkey, Option.filter_some, if_pos (decide_eq_true hne)]
    change (demand _ _ >>= _) = _
    rw [hfind]
    change (ensure _ _ >>= _) = _
    rw [decide_eq_true rfl]
    rfl

/-- A request that only users may make comes with a token that stands for one. -/
theorem exists_of_requestor (h : Sound env s) {auth : Option τ}
    (hun : ∀ t ∈ auth.toList, Unforged env s t) {u' : User} (hok : requestor env s auth = .ok u') :
    ∃ t u p, auth = some t ∧ Accepted env s t u p ∧ u' = u.delegated p := by
  obtain ⟨user, huser, hok⟩ := exists_of_bind_eq_ok hok
  obtain ⟨u, hu, hok⟩ := exists_of_bind_eq_ok hok
  obtain ⟨_, -, hdone⟩ := exists_of_bind_eq_ok hok
  rw [demand_eq_ok] at hu
  subst hu
  obtain rfl := Except.ok.inj hdone
  cases auth with
  | none => cases huser
  | some t =>
    obtain ⟨v, p, ha, heq⟩ :=
      (loadUserFromRequest_eq_ok h (hun t (List.mem_singleton_self t))).mp huser
    exact ⟨t, v, p, rfl, ha, heq⟩

/-- The user is one of those there are, whatever the tokens. -/
theorem mem_of_requestor {auth : Option τ} {u' : User} (hok : requestor env s auth = .ok u') :
    ∃ u ∈ s.users, ∃ p, u' = u.delegated p := by
  obtain ⟨user, huser, hok⟩ := exists_of_bind_eq_ok hok
  obtain ⟨v, hv, hok⟩ := exists_of_bind_eq_ok hok
  obtain ⟨_, -, hdone⟩ := exists_of_bind_eq_ok hok
  rw [demand_eq_ok] at hv
  rw [hv, Except.ok.inj hdone, loadUserFromRequest.eq_def] at huser
  split at huser
  · cases huser
  split at huser
  · cases huser
  split at huser
  · cases huser
  · cases huser
  · obtain ⟨_, -, huser⟩ := exists_of_bind_eq_ok huser
    obtain ⟨email, -, huser⟩ := exists_of_bind_eq_ok huser
    obtain ⟨key, -, huser⟩ := exists_of_bind_eq_ok huser
    obtain ⟨u, hu, huser⟩ := exists_of_bind_eq_ok huser
    obtain ⟨_, -, huser⟩ := exists_of_bind_eq_ok huser
    exact ⟨u, List.mem_of_find?_eq_some (demand_eq_ok.mp hu), _,
      (Option.some.inj (Except.ok.inj huser)).symm⟩

theorem mem_of_retrieveUserByEmail {email : String} {u : User}
    (h : retrieveUserByEmail env s email = some u) : u ∈ s.users := by
  rw [retrieveUserByEmail] at h
  split at h
  · rcases Option.or_eq_some_iff.mp h with hfind | ⟨-, hfind⟩
    · exact (List.mem_filter.mp (List.mem_of_find?_eq_some hfind)).1
    · exact (List.mem_filter.mp (List.mem_of_find?_eq_some hfind)).1
  · exact (List.mem_filter.mp (List.mem_of_mem_head? h)).1

theorem getUserFromPayload_eq_some {p : Payload} {u : User} (h : getUserFromPayload s p = some u) :
    u ∈ s.users ∧ p.email = some u.email ∧ p.token = some u.jwtTokenKey ∧ u.isActive = true := by
  rw [getUserFromPayload] at h
  split at h
  · rename_i email key hemail hkey
    split at h
    · cases h
    · obtain ⟨hfind, hsame⟩ := Option.filter_eq_some_iff.mp h
      have hcond := List.find?_some hfind
      rw [Bool.and_eq_true, decide_eq_true_eq] at hcond
      rw [hemail, hkey, hcond.1, of_decide_eq_true hsame]
      exact ⟨List.mem_of_find?_eq_some hfind, rfl, rfl, hcond.2⟩
  · cases h

/-! ### Requests -/

theorem expiry_le (now ttl : Time) : expiry now ttl * 1000000 ≤ now + ttl :=
  Int.ediv_mul_le _ (by decide)

theorem lt_of_seconds_lt {now exp : ℤ} (h : seconds now < exp) : now < exp * 1000000 :=
  (Int.ediv_lt_iff_lt_mul (by decide)).mp h

/-- The daily reward is not about credentials. -/
theorem credentials_saveDays {u mem : Account.User} {now : Time}
    {events : List Account.BalanceEvent} {fields : List Account.UserField}
    (h : updateContinuousDays CONTINUOUS_BALANCE_ADD env.date now u now []
      = some (mem, events, fields)) (row : User) :
    (User.saveDays mem fields row).credentials = row.credentials := by
  have hfields : Account.UserField.email ∉ fields := by
    simp only [updateContinuousDays, List.nil_append] at h
    split at h
    · obtain ⟨delta, -, h⟩ := Option.bind_eq_some_iff.mp h
      obtain ⟨-, -, rfl⟩ := Prod.mk.inj (Option.some.inj h)
      decide
    · cases h
      decide
  rw [User.credentials, User.saveDays, Account.User.saveFields, if_neg hfields]
  rfl

theorem effect_tokenCreate {email password csrf : String} {audience : Option String}
    (hok : tokenCreate env s email password audience csrf = .ok s') :
    ∃ u ∈ s.users, s' = loggedIn env s u audience csrf := by
  obtain ⟨u, hu, hok⟩ := exists_of_bind_eq_ok hok
  obtain ⟨v, hv, hu⟩ := exists_of_bind_eq_ok hu
  obtain ⟨_, -, hu⟩ := exists_of_bind_eq_ok hu
  obtain ⟨_, -, hu⟩ := exists_of_bind_eq_ok hu
  obtain ⟨_, -, hu⟩ := exists_of_bind_eq_ok hu
  obtain rfl := Except.ok.inj hu
  exact ⟨v, mem_of_retrieveUserByEmail (demand_eq_ok.mp hv), (Except.ok.inj hok).symm⟩

theorem sound_loggedIn (h : Sound env s) {u : User} (hu : u ∈ s.users) (audience : Option String)
    (csrf : String) : Sound env (loggedIn env s u audience csrf) := by
  have hlogin : s.now ∈ (s.login u.pk).logins u.pk := by
    rw [logins_login, if_pos rfl]
    exact List.mem_append_right _ (List.mem_singleton_self _)
  have haccess := (h.login u.pk).issue (u := u) hu rfl rfl
    (p := { jwtUserPayload u .access s.now env.ttlAccess with aud := customAudience audience })
    nofun fun _ => ⟨s.now, hlogin, _, rfl, (expiry_le _ _).trans
      (add_le_add_right (le_add_of_nonneg_left env.ttlRefresh_nonneg) _)⟩
  have hrefresh := haccess.issue (u := u) hu rfl rfl
    (p := { jwtUserPayload u .refresh s.now env.ttlRefresh with
      csrfToken := some csrf
      aud := customAudience audience })
    (fun _ => ⟨s.now, hlogin, _, rfl, expiry_le _ _⟩) nofun
  exact hrefresh.touch u.pk _ _ fun _ => rfl

/-- A token for requests goes back to the login of the token it is made with. -/
theorem sound_refreshed (h : Sound env s) {t : τ} (hun : Unforged env s t) {p : Payload}
    (hp : jwtDecode env s.now t = .ok p) (htype : p.type = some .refresh) {u : User}
    (hu : getUserFromPayload s p = some u) (aud : Option String) :
    Sound env (s.issue u.pk (env.jwt.encode
      { jwtUserPayload u .access s.now env.ttlAccess with aud })) := by
  obtain ⟨-, -, rfl, hmade, hfresh⟩ := (jwtDecode_eq_ok h hun).mp hp
  obtain ⟨hmem, -, hkey, -⟩ := getUserFromPayload_eq_some hu
  have hcurrent := (h.current_iff u hmem p hmade).mpr hkey
  obtain ⟨l, hl, exp, hexp, hle⟩ := h.refresh _ p hcurrent htype
  have hlt := lt_of_seconds_lt (hfresh exp hexp)
  exact h.issue (u := u) hmem rfl rfl nofun
    fun _ => ⟨l, hl, _, rfl, (expiry_le _ _).trans (by omega)⟩

/-! ### What becomes of a row -/

/-- A row before and after a request: the key and the password stay or are new, and of a new
password there is a record. -/
structure Follows (env : Env τ η) (e : Served τ η) (passwords : List String) (u v : User) :
    Prop where
  pk : v.pk = u.pk
  key : v.jwtTokenKey = u.jwtTokenKey ∨ v.jwtTokenKey = e.key
  password : v.password = u.password ∨
    (∃ raw, v.password = env.makePassword raw e.salt) ∧ v.password ∈ passwords

theorem Follows.trans {passwords : List String} {u v w : User}
    (huv : Follows env e passwords u v) (hvw : Follows env e passwords v w) :
    Follows env e passwords u w := by
  refine ⟨hvw.pk.trans huv.pk, ?_, ?_⟩
  · rcases hvw.key with hkey | hkey
    · exact hkey ▸ huv.key
    · exact .inr hkey
  · rcases hvw.password with hpassword | hpassword
    · exact hpassword ▸ huv.password
    · exact .inr hpassword

/-- The row of a user who is registered. -/
structure Registered (env : Env τ η) (s : State τ) (e : Served τ η) (passwords : List String)
    (v : User) : Prop where
  pk : v.pk = s.nextPk
  key : v.jwtTokenKey = e.key
  password : (∃ raw, v.password = env.makePassword raw e.salt) ∧ v.password ∈ passwords

theorem exists_of_mem_modify {k : ℕ} {f : User → User} {hf : ∀ u, (f u).pk = u.pk} {v : User}
    {passwords : List String} (hv : v ∈ (s.modify k f hf).users)
    (hfollows : ∀ u, Follows env e passwords u (f u)) :
    ∃ u ∈ s.users, Follows env e passwords u v := by
  obtain ⟨u, hu, rfl⟩ := mem_modify.mp hv
  refine ⟨u, hu, ?_⟩
  split
  · exact hfollows u
  · exact ⟨rfl, .inl rfl, .inl rfl⟩

theorem exists_of_mem_setPassword {k : ℕ} {raw : String} {v : User}
    (hv : v ∈ (s.setPassword k (env.makePassword raw e.salt)).users) :
    ∃ u ∈ s.users, Follows env e (s.passwords ++ [env.makePassword raw e.salt]) u v := by
  rw [users_setPassword] at hv
  exact exists_of_mem_modify hv fun _ =>
    ⟨rfl, .inl rfl, .inr ⟨⟨raw, rfl⟩, List.mem_append_right _ (List.mem_singleton_self _)⟩⟩

theorem exists_of_mem_loggedIn {u : User} {audience : Option String} {csrf : String} {v : User}
    {passwords : List String} (hv : v ∈ (loggedIn env s u audience csrf).users) :
    ∃ u ∈ s.users, Follows env e passwords u v := by
  rw [users_loggedIn] at hv
  exact exists_of_mem_modify hv fun _ => ⟨rfl, .inl rfl, .inl rfl⟩

/-! ### What a request can do -/

variable [DecidableEq η]

/-- **What a request can do**, and what must have been there for it. -/
inductive Effect (env : Env τ η) (s : State τ) (e : Served τ η) : State τ → Prop where
  | same : Effect env s e s
  | tokenCreate (u : User) (hu : u ∈ s.users) (audience : Option String) :
    Effect env s e (loggedIn env s u audience e.csrf)
  | tokenRefresh (t : τ) (p : Payload) (u : User) (aud : Option String)
    (ht : t ∈ e.request.tokens) (hp : jwtDecode env s.now t = .ok p)
    (htype : p.type = some .refresh) (hu : getUserFromPayload s p = some u) (f : User → User)
    (hf : ∀ u, (f u).pk = u.pk)
    (hsame : ∀ u, (f u).credentials = u.credentials) :
    Effect env s e ((s.issue u.pk (env.jwt.encode
      { jwtUserPayload u .access s.now env.ttlAccess with aud })).modify u.pk f hf)
  | tokensDeactivateAll (auth : Option τ) (hauth : auth.toList ⊆ e.request.tokens) (u : User)
    (hu : requestor env s auth = .ok u) : Effect env s e (s.rekey u.pk e.key)
  | appAccessToken (t : τ) (ht : t ∈ e.request.tokens) (u : User)
    (hu : loadUserFromRequest env s (some t) = .ok (some u)) (permissions : List String)
    (aud : Option String) :
    Effect env s e (s.issue u.pk (env.jwt.encode { jwtUserPayload u .thirdparty s.now
      env.ttlAppAccess with permissions := some permissions, aud }))
  | send (v : LinkValue) (u : User) (hu : u ∈ s.users) (hv : v.password = u.password) :
    Effect env s e (s.send v)
  | sendAndTouch (v : LinkValue) (u : User) (hu : u ∈ s.users) (hv : v.password = u.password)
    (k : ℕ) (f : User → User) (hf : ∀ u, (f u).pk = u.pk)
    (hsame : ∀ u, (f u).credentials = u.credentials) :
    Effect env s e ((s.send v).modify k f hf)
  | setPassword (email raw : String) (token : LinkToken η) (u : User)
    (hrequest : e.request = .setPassword email raw token) (hu : u ∈ s.users)
    (hcheck : checkToken env linkValue s.now u token = true) :
    Effect env s e (s.setPassword u.pk (env.makePassword raw e.salt))
  | setPasswordAndLogin (email raw : String) (token : LinkToken η) (u v : User)
    (hrequest : e.request = .setPassword email raw token) (hu : u ∈ s.users)
    (hcheck : checkToken env linkValue s.now u token = true)
    (hv : v ∈ (s.setPassword u.pk (env.makePassword raw e.salt)).users) :
    Effect env s e
      (loggedIn env (s.setPassword u.pk (env.makePassword raw e.salt)) v none e.csrf)
  | passwordChange (auth : Option τ) (oldPassword : Option String) (raw : String)
    (hrequest : e.request = .passwordChange auth oldPassword raw) (u : User)
    (hu : requestor env s auth = .ok u) (hvalid : oldPasswordValid env oldPassword u = true) :
    Effect env s e (s.setPassword u.pk (env.makePassword raw e.salt))
  | requestEmailChange (p : Payload) (howner : p.owner = JWT_SALEOR_OWNER_NAME)
    (hkey : p.token = none) : Effect env s e (s.issueOther (env.jwt.encode p))
  | confirmEmailChange (auth : Option τ) (hauth : auth.toList ⊆ e.request.tokens) (u : User)
    (hu : requestor env s auth = .ok u) (email : String) (hnew : ∀ v ∈ s.users, v.email ≠ email) :
    Effect env s e (s.modify u.pk (fun row => { row with email }) fun _ => rfl)
  | accountRegister (u : User) (users : Table User) (hinsert : s.users.insert u = some users)
    (hpk : u.pk = s.nextPk) (hnew : ∀ v ∈ s.users, v.email ≠ u.email) (hkey : u.jwtTokenKey = e.key)
    (raw : String) (hpassword : u.password = env.makePassword raw e.salt) :
    Effect env s e (s.insertUser u users)
  | accountRegisterAndSend (u : User) (users : Table User) (hinsert : s.users.insert u = some users)
    (hpk : u.pk = s.nextPk) (hnew : ∀ v ∈ s.users, v.email ≠ u.email) (hkey : u.jwtTokenKey = e.key)
    (raw : String) (hpassword : u.password = env.makePassword raw e.salt) (v : LinkValue)
    (hv : v.password = u.password) : Effect env s e ((s.insertUser u users).send v)
  | confirmAccount (token : LinkToken η) (htoken : token ∈ e.request.links) (u : User)
    (hu : u ∈ s.users) (hcheck : checkToken env linkValue s.now u token = true) :
    Effect env s e
      (s.modify u.pk (fun row => { row with isActive := true, isConfirmed := true }) fun _ => rfl)
  | accountDelete (auth : Option τ) (hauth : auth.toList ⊆ e.request.tokens) (u : User)
    (hu : requestor env s auth = .ok u) (token : LinkToken η) (htoken : token ∈ e.request.links)
    (hcheck : checkToken env deleteLinkValue s.now u token = true) :
    Effect env s e (s.deleteUser u.pk)
  | customerUpdate (k : ℕ) (hstaff : e.request.byStaff = true) (email : String)
    (isActive isConfirmed : Option Bool)
    (hemail : ∀ u ∈ s.users, u.pk = k → email = u.email ∨ ∀ v ∈ s.users, v.email ≠ email) :
    Effect env s e (s.modify k (fun row => { row with
      email
      isActive := isActive.getD row.isActive
      isConfirmed := isConfirmed.getD row.isConfirmed }) fun _ => rfl)
  | customerDelete (k : ℕ) (hstaff : e.request.byStaff = true) : Effect env s e (s.deleteUser k)

theorem effect_tokenRefresh {refreshToken : Option (Option τ)} {cookie : Option τ}
    {csrfToken : Option String}
    (hrequest : e.request = .tokenRefresh refreshToken cookie csrfToken)
    (hok : tokenRefresh env s refreshToken cookie csrfToken = .ok s') : Effect env s e s' := by
  obtain ⟨t, ht, hok⟩ := exists_of_bind_eq_ok hok
  obtain ⟨p, hp, hok⟩ := exists_of_bind_eq_ok hok
  obtain ⟨type, htype, hok⟩ := exists_of_bind_eq_ok hok
  obtain ⟨_, hrefresh, hok⟩ := exists_of_bind_eq_ok hok
  obtain ⟨_, -, hok⟩ := exists_of_bind_eq_ok hok
  obtain ⟨u, hu, hok⟩ := exists_of_bind_eq_ok hok
  obtain ⟨days, hdays, hok⟩ := exists_of_bind_eq_ok hok
  rw [demand_eq_ok] at ht htype
  rw [ensure_eq_ok] at hrefresh
  have hmem : t ∈ e.request.tokens := by
    rw [hrequest]
    rcases Option.or_eq_some_iff.mp ht with hown | ⟨-, hcookie⟩
    · exact List.mem_append_left _ (Option.mem_toList.mpr hown)
    · exact List.mem_append_right _ (Option.mem_toList.mpr hcookie)
  have hdecode : jwtDecode env s.now t = .ok p := by
    rw [getPayload] at hp
    split at hp
    · cases hp
    · cases hp
    · rename_i q hq
      rwa [Except.ok.inj hp] at hq
  rw [of_decide_eq_true hrefresh] at htype
  rw [← Except.ok.inj hok]
  exact .tokenRefresh t p u _ hmem hdecode htype (demand_eq_ok.mp hu) _ _
    (credentials_saveDays (demand_eq_ok.mp hdays))

theorem effect_appAccessToken {auth : Option τ} {audience : Option String}
    {permissions : List String}
    (hrequest : e.request = .appAccessToken auth permissions audience)
    (hok : appAccessToken env s auth permissions audience = .ok s') : Effect env s e s' := by
  obtain ⟨user, huser, hok⟩ := exists_of_bind_eq_ok hok
  split at hok
  · exact Except.ok.inj hok ▸ .same
  · rename_i u
    split at hok
    · exact Except.ok.inj hok ▸ .same
    · have hdone := Except.ok.inj hok
      cases auth with
      | none => cases huser
      | some t =>
        have hmem : t ∈ e.request.tokens := by
          rw [hrequest]
          exact List.mem_singleton_self t
        exact hdone ▸ .appAccessToken t hmem u huser permissions audience

/-- No row has the address. -/
theorem forall_email_ne {email : String} {x : Failure} {r : Unit}
    (h : ensure (!s.emailExists email) x = .ok r) : ∀ v ∈ s.users, v.email ≠ email := by
  rw [ensure_eq_ok, Bool.not_eq_true', State.emailExists, List.any_eq_false] at h
  exact fun v hv heq => h v hv (decide_eq_true heq)

theorem mem_of_getByEmail {email : String} {u : User} (h : s.getByEmail email = some u) :
    u ∈ s.users :=
  List.mem_of_find?_eq_some h

theorem effect_accountRegister {input : AccountRegisterInput}
    (hok : accountRegister env s input e.salt e.key = .ok s') : Effect env s e s' := by
  obtain ⟨_, -, hok⟩ := exists_of_bind_eq_ok hok
  obtain ⟨_, hexists, hok⟩ := exists_of_bind_eq_ok hok
  obtain ⟨_, -, hok⟩ := exists_of_bind_eq_ok hok
  obtain ⟨users, hinsert, hok⟩ := exists_of_bind_eq_ok hok
  rw [← Except.ok.inj hok]
  split
  · exact .accountRegisterAndSend _ users (demand_eq_ok.mp hinsert) rfl (forall_email_ne hexists)
      rfl _ rfl _ rfl
  · exact .accountRegister _ users (demand_eq_ok.mp hinsert) rfl (forall_email_ne hexists) rfl _ rfl

theorem effect_setPassword {email raw : String} {token : LinkToken η}
    (hrequest : e.request = .setPassword email raw token) {t : State τ}
    (hok : setPasswordForUser env s email raw token e.salt = .ok t) :
    Effect env s e (match tokenCreate env t email raw none e.csrf with
      | .ok s'' => s''
      | .error _ => t) := by
  obtain ⟨u, hu, hok⟩ := exists_of_bind_eq_ok hok
  obtain ⟨_, hcheck, hok⟩ := exists_of_bind_eq_ok hok
  obtain ⟨_, -, hok⟩ := exists_of_bind_eq_ok hok
  have hmem := mem_of_getByEmail (demand_eq_ok.mp hu)
  rw [ensure_eq_ok] at hcheck
  obtain rfl := Except.ok.inj hok
  split
  · rename_i hlogin
    obtain ⟨v, hv, rfl⟩ := effect_tokenCreate hlogin
    exact .setPasswordAndLogin email raw token u v hrequest hmem hcheck hv
  · exact .setPassword email raw token u hrequest hmem hcheck

theorem effect_customerUpdate {granted : Bool} {k : ℕ} {email : Option String}
    {isActive isConfirmed : Option Bool}
    (hrequest : e.request = .customerUpdate granted k email isActive isConfirmed)
    (hok : customerUpdate env s granted k email isActive isConfirmed = .ok s') :
    Effect env s e s' := by
  obtain ⟨_, hgranted, hok⟩ := exists_of_bind_eq_ok hok
  obtain ⟨u, hu, hok⟩ := exists_of_bind_eq_ok hok
  obtain ⟨_, -, hok⟩ := exists_of_bind_eq_ok hok
  obtain ⟨_, hexists, hok⟩ := exists_of_bind_eq_ok hok
  rw [ensure_eq_ok] at hgranted
  rw [ensure_eq_ok, Bool.or_eq_true, Bool.not_eq_true', State.emailExists, List.any_eq_false]
    at hexists
  obtain ⟨hmem, hpk⟩ := Table.find?_eq_some.mp (demand_eq_ok.mp hu)
  rw [← Except.ok.inj hok]
  have hstaff : e.request.byStaff = true := by
    rw [hrequest]
    exact hgranted
  refine .customerUpdate k hstaff _ isActive isConfirmed fun v hv hvk => ?_
  rcases hexists with hsame | hnew
  · rw [Table.eq_of_pk_eq hv hmem (hvk.trans hpk.symm)]
    exact .inl (of_decide_eq_true hsame)
  · exact .inr fun w hw heq => hnew w hw (decide_eq_true heq)

/-- **Every request does one of these.** -/
theorem effect_exec (hok : exec env s e = .ok s') : Effect env s e s' := by
  rw [exec] at hok
  split at hok <;> rename_i hrequest
  case h_1 =>
    obtain ⟨u, hu, rfl⟩ := effect_tokenCreate hok
    exact .tokenCreate u hu _
  case h_2 => exact effect_tokenRefresh hrequest hok
  case h_3 auth =>
    obtain ⟨u, hu, hok⟩ := exists_of_bind_eq_ok hok
    exact Except.ok.inj hok ▸
      .tokensDeactivateAll auth (by rw [hrequest]; exact List.Subset.refl _) u hu
  case h_4 => exact effect_appAccessToken hrequest hok
  case h_5 =>
    obtain ⟨_, -, hok⟩ := exists_of_bind_eq_ok hok
    obtain ⟨u, hu, hok⟩ := exists_of_bind_eq_ok hok
    obtain ⟨_, -, hok⟩ := exists_of_bind_eq_ok hok
    obtain ⟨_, -, hok⟩ := exists_of_bind_eq_ok hok
    obtain ⟨_, -, hok⟩ := exists_of_bind_eq_ok hok
    have hmem := mem_of_retrieveUserByEmail (demand_eq_ok.mp hu)
    exact Except.ok.inj hok ▸ .sendAndTouch _ u hmem rfl _ _ _ fun _ => rfl
  case h_6 =>
    obtain ⟨t, ht, rfl⟩ := exists_of_map_eq_ok hok
    exact effect_setPassword hrequest ht
  case h_7 auth oldPassword raw =>
    obtain ⟨u, hu, hok⟩ := exists_of_bind_eq_ok hok
    obtain ⟨_, hvalid, hok⟩ := exists_of_bind_eq_ok hok
    obtain ⟨_, -, hok⟩ := exists_of_bind_eq_ok hok
    exact Except.ok.inj hok ▸
      .passwordChange auth oldPassword raw hrequest u hu (ensure_eq_ok.mp hvalid)
  case h_8 =>
    obtain ⟨u, -, hok⟩ := exists_of_bind_eq_ok hok
    obtain ⟨_, -, hok⟩ := exists_of_bind_eq_ok hok
    obtain ⟨_, -, hok⟩ := exists_of_bind_eq_ok hok
    obtain ⟨_, -, hok⟩ := exists_of_bind_eq_ok hok
    obtain ⟨_, -, hok⟩ := exists_of_bind_eq_ok hok
    exact Except.ok.inj hok ▸ .requestEmailChange _ rfl rfl
  case h_9 auth _ =>
    obtain ⟨u, hu, hok⟩ := exists_of_bind_eq_ok hok
    obtain ⟨p, -, hok⟩ := exists_of_bind_eq_ok hok
    obtain ⟨newEmail, -, hok⟩ := exists_of_bind_eq_ok hok
    obtain ⟨_, -, hok⟩ := exists_of_bind_eq_ok hok
    obtain ⟨_, hexists, hok⟩ := exists_of_bind_eq_ok hok
    exact Except.ok.inj hok ▸ .confirmEmailChange auth
      (by rw [hrequest]; exact List.subset_append_left _ _) u hu _ (forall_email_ne hexists)
  case h_10 => exact effect_accountRegister hok
  case h_11 token =>
    obtain ⟨u, hu, hok⟩ := exists_of_bind_eq_ok hok
    obtain ⟨_, hcheck, hok⟩ := exists_of_bind_eq_ok hok
    have hmem := mem_of_getByEmail (demand_eq_ok.mp hu)
    exact Except.ok.inj hok ▸ .confirmAccount token
      (by rw [hrequest]; exact List.mem_singleton_self _) u hmem (ensure_eq_ok.mp hcheck)
  case h_12 =>
    obtain ⟨u', hu, hok⟩ := exists_of_bind_eq_ok hok
    obtain ⟨_, -, hok⟩ := exists_of_bind_eq_ok hok
    obtain ⟨_, -, hok⟩ := exists_of_bind_eq_ok hok
    obtain ⟨_, -, hok⟩ := exists_of_bind_eq_ok hok
    obtain ⟨_, -, hok⟩ := exists_of_bind_eq_ok hok
    obtain ⟨u, hmem, p, hdelegated⟩ := mem_of_requestor hu
    have hpassword : u'.password = u.password := by rw [hdelegated]; rfl
    exact Except.ok.inj hok ▸ .sendAndTouch _ u hmem hpassword _ _ _ fun _ => rfl
  case h_13 =>
    obtain ⟨u', hu, hok⟩ := exists_of_bind_eq_ok hok
    obtain ⟨_, -, hok⟩ := exists_of_bind_eq_ok hok
    obtain ⟨_, -, hok⟩ := exists_of_bind_eq_ok hok
    obtain ⟨u, hmem, p, hdelegated⟩ := mem_of_requestor hu
    have hpassword : u'.password = u.password := by rw [hdelegated]; rfl
    exact Except.ok.inj hok ▸ .send _ u hmem hpassword
  case h_14 auth token =>
    obtain ⟨u, hu, hok⟩ := exists_of_bind_eq_ok hok
    obtain ⟨_, -, hok⟩ := exists_of_bind_eq_ok hok
    obtain ⟨_, hcheck, hok⟩ := exists_of_bind_eq_ok hok
    exact Except.ok.inj hok ▸ .accountDelete auth (by rw [hrequest]; exact List.Subset.refl _) u hu
      token (by rw [hrequest]; exact List.mem_singleton_self _) (ensure_eq_ok.mp hcheck)
  case h_15 => exact effect_customerUpdate hrequest hok
  case h_16 k =>
    obtain ⟨_, hgranted, hok⟩ := exists_of_bind_eq_ok hok
    obtain ⟨u, -, hok⟩ := exists_of_bind_eq_ok hok
    obtain ⟨_, -, hok⟩ := exists_of_bind_eq_ok hok
    obtain ⟨_, -, hok⟩ := exists_of_bind_eq_ok hok
    obtain ⟨_, -, hok⟩ := exists_of_bind_eq_ok hok
    exact Except.ok.inj hok ▸ .customerDelete k (by rw [hrequest]; exact ensure_eq_ok.mp hgranted)

variable (env) in
/-- A request that fails does nothing. -/
theorem effect_step (s : State τ) (e : Served τ η) :
    Effect env { s with now := e.now } e (step env s e) := by
  rw [step]
  split
  · rename_i hexec
    exact effect_exec hexec
  · exact .same

/-! ### Every request keeps the invariant -/

theorem sound_effect (h : Sound env s) (hne : e.key ≠ "") (hnew : e.key ∉ s.keys)
    (hun : ∀ t ∈ e.request.tokens, Unforged env s t) (he : Effect env s e s') :
    Sound env s' := by
  cases he with
  | same => exact h
  | tokenCreate u hu audience => exact sound_loggedIn h hu audience e.csrf
  | tokenRefresh t p u aud ht hp htype hu f hf hsame =>
    exact (sound_refreshed h (hun t ht) hp htype hu aud).touch _ f hf hsame
  | tokensDeactivateAll auth hauth u hu => exact h.rekey _ hne hnew
  | appAccessToken t ht u hu permissions aud =>
    obtain ⟨v, p, ha, rfl⟩ := (loadUserFromRequest_eq_ok h (hun t ht)).mp hu
    exact h.issue (u := v) ha.mem rfl rfl nofun nofun
  | send v => exact h.send v
  | sendAndTouch v u hu hv k f hf hsame => exact (h.send v).touch k f hf hsame
  | setPassword email raw token u hrequest hu hcheck => exact h.setPassword _ _
  | setPasswordAndLogin email raw token u v hrequest hu hcheck hv =>
    exact sound_loggedIn (h.setPassword _ _) hv none e.csrf
  | passwordChange auth oldPassword raw hrequest u hu hvalid => exact h.setPassword _ _
  | requestEmailChange p howner hkey => exact h.issueOther howner hkey
  | confirmEmailChange auth hauth u hu email hemail =>
    exact h.modify _ _ _ (fun _ => rfl) fun _ _ _ => .inr hemail
  | accountRegister u users hinsert hpk hemail hkey =>
    exact h.insertUser hinsert hpk hemail (hkey ▸ hne) (hkey ▸ hnew)
  | accountRegisterAndSend u users hinsert hpk hemail hkey raw hpassword v =>
    exact (h.insertUser hinsert hpk hemail (hkey ▸ hne) (hkey ▸ hnew)).send v
  | confirmAccount token htoken u hu hcheck =>
    exact h.modify _ _ _ (fun _ => rfl) fun _ _ _ => .inl rfl
  | accountDelete auth hauth u hu => exact h.deleteUser _
  | customerUpdate k hstaff email isActive isConfirmed hemail =>
    exact h.modify k _ _ (fun _ => rfl) hemail
  | customerDelete k hstaff => exact h.deleteUser k

theorem sound_step (h : Sound env s) (hok : e.Ok env s) : Sound env (step env s e) :=
  sound_effect (h.setNow e.now) hok.key_ne hok.key_new hok.unforged (effect_step env s e)

/-- **The invariant holds** in every state of a run. -/
theorem sound_reached (h : Sound env s) {es : List (Served τ η)}
    (hes : EachStep (step env) (fun s e => e.Ok env s) s es) {t : State τ}
    (ht : Reached (step env) s es t) : Sound env t :=
  hes.inv_reached (fun _ _ => sound_step) h ht

/-! ### An example -/

/-- A token is what it says, and whether it was signed; a link is what it is made of, and a password
is stored behind its salt. The times are the default ones. -/
def plainEnv : Env (Payload × Bool) LinkValue where
  jwt := ⟨fun p => (p, true), fun t => some t.1, fun t => t.2, fun _ => rfl, fun _ => rfl⟩
  linkHash := id
  linkHash_injective := Function.injective_id
  checkPassword raw password := decide (("$" ++ raw).toList <:+ password.toList)
  makePassword raw salt := salt ++ ("$" ++ raw)
  validatePassword raw :=
    if raw.toList.length < 8 then some ("This password is too short.", .passwordTooShort) else none
  doesTokenMatch csrf given := decide (csrf = given)
  lower email := .ofList (email.toList.map Char.toLower)
  upper email := .ofList (email.toList.map Char.toUpper)
  date t := t / 86400000000
  ttlAccess := 1800000000
  ttlAppAccess := 300000000
  ttlRefresh := 2592000000000
  ttlRefresh_nonneg := Int.natCast_nonneg 2592000000000
  ttlRequestEmailChange := 3600000000
  passwordResetTimeout := 259200
  resetPasswordLockTime := 900000000
  confirmationEmailLockTime := 900000000
  enableAccountConfirmationByEmail := true
  allowLoginWithoutConfirmation := false

/-- The conditions, where they can be looked up. -/
theorem plain_ok {s : State (Payload × Bool)} {e : Served (Payload × Bool) LinkValue}
    (h : s.now ≤ e.now ∧ e.key ≠ "" ∧ e.key ∉ s.keys ∧
      (∀ p ∈ s.passwords, ¬e.salt.toList <+: p.toList) ∧
      (∀ t ∈ e.request.tokens, t.2 = true → t ∈ s.made) ∧
      ∀ l ∈ e.request.links, l.hash ∈ s.links) : e.Ok plainEnv s where
  later := h.1
  key_ne := h.2.1
  key_new := h.2.2.1
  salt_new raw hmem := by
    refine h.2.2.2.1 _ hmem ?_
    change e.salt.toList <+: (e.salt ++ ("$" ++ raw)).toList
    rw [String.toList_append]
    exact List.prefix_append _ _
  unforged := h.2.2.2.2.1
  links_sent l hl v hv := by
    change v = l.hash at hv
    exact hv ▸ h.2.2.2.2.2 l hl

/-- Nobody is registered. -/
def plainStart : State (Payload × Bool) := { users := .empty, nextPk := 1, now := 0 }

/-- The link that is sent on the registration below. -/
def confirmLink : LinkToken LinkValue where
  timestamp := 1
  hash :=
    { pk := 1, password := "s1$swordfish", lastLogin := some 1, timestamp := 1, email := "a@b.c" }

/-- Someone registers, confirms, logs in, and has forgotten the password. -/
def visit : List (Served (Payload × Bool) LinkValue) :=
  [⟨.accountRegister { email := "a@b.c", password := "swordfish", redirectUrl := some (.ok ()) },
      1000000, "k1", "s1", "c1"⟩,
    ⟨.confirmAccount "a@b.c" confirmLink, 2000000, "k2", "s2", "c2"⟩,
    ⟨.tokenCreate "a@b.c" "swordfish" none, 3000000, "k3", "s3", "c3"⟩,
    ⟨.requestPasswordReset "a@b.c" (.ok ()) (.ok ()), 4000000, "k4", "s4", "c4"⟩]

/-- The token to make requests with that the login gives. -/
def visitToken : Payload × Bool :=
  ({ exp := some 1803, token := some "k1", email := some "a@b.c", type := some .access
     userId := some 1 }, true)

/-- The row that the visit leaves. -/
def visitor : User where
  pk := 1
  email := "a@b.c"
  balance := defaultBalance
  lastLogin := 3000000
  isConfirmed := true
  password := "s1$swordfish"
  jwtTokenKey := "k1"
  lastPasswordResetRequest := some 4000000

theorem visit_ok : EachStep (step plainEnv) (fun s e => e.Ok plainEnv s) plainStart visit :=
  ⟨plain_ok (by decide), plain_ok (by decide), plain_ok (by decide), plain_ok (by decide), trivial⟩

/-! ### Which tokens are accepted -/

section Run

variable {r : State τ} {es : List (Served τ η)}

/-- **Which tokens are accepted**, in every state of a run, and as whom. -/
theorem loadUserFromRequest_run_iff (h : Sound env s)
    (hes : EachStep (step env) (fun s e => e.Ok env s) s es) (hr : Reached (step env) s es r)
    {t : τ} (hun : Unforged env r t) (u' : User) :
    loadUserFromRequest env r (some t) = .ok (some u') ↔
      ∃ u p, Accepted env r t u p ∧ u' = u.delegated p :=
  loadUserFromRequest_eq_ok (sound_reached h hes hr) hun

/-- The token of the login is the visitor's. -/
theorem loadUserFromRequest_visit :
    ∃ u p, Accepted plainEnv (run (step plainEnv) plainStart visit) visitToken u p ∧
      visitor = u.delegated p :=
  (loadUserFromRequest_run_iff (Sound.empty 1 0) visit_ok (reached_run plainStart visit)
    (fun _ => by decide) visitor).mp (by decide)

/-- **Requests can be made for a limited time after a login**, however often tokens are
refreshed. -/
theorem accepted_after_login (h : Sound env s)
    (hes : EachStep (step env) (fun s e => e.Ok env s) s es) (hr : Reached (step env) s es r)
    {t : τ} (hun : Unforged env r t) {u' : User}
    (hok : loadUserFromRequest env r (some t) = .ok (some u'))
    {p : Payload} (hp : env.jwt.payload t = some p) (htype : p.type = some .access) :
    ∃ login ∈ r.logins u'.pk, r.now < login + (env.ttlRefresh + env.ttlAccess) := by
  have hs := sound_reached h hes hr
  obtain ⟨u, q, ha, rfl⟩ := (loadUserFromRequest_eq_ok hs hun).mp hok
  obtain rfl := Option.some.inj (ha.payload.symm.trans hp)
  obtain ⟨q', rfl, -⟩ := hs.made t (hs.current_made _ _ ha.current)
  obtain rfl := Option.some.inj ((env.jwt.payload_encode q').symm.trans ha.payload)
  obtain ⟨login, hlogin, exp, hexp, hle⟩ := hs.access _ q' ha.current htype
  exact ⟨login, hlogin, (lt_of_seconds_lt (ha.fresh exp hexp)).trans_le hle⟩

/-- As long as the token of the login is accepted. -/
theorem accepted_after_login_visit :
    let r := run (step plainEnv) plainStart visit
    ∃ login ∈ r.logins visitor.pk,
      r.now < login + (plainEnv.ttlRefresh + plainEnv.ttlAccess) :=
  have haccepted : loadUserFromRequest plainEnv (run (step plainEnv) plainStart visit)
      (some visitToken) = .ok (some visitor) := by decide
  accepted_after_login (Sound.empty 1 0) visit_ok (reached_run plainStart visit)
    (fun _ => by decide) haccepted rfl rfl

end Run

/-! ### What becomes of rows -/

/-- **What becomes of rows**: each is one that was there, or that of a user who is registered. -/
theorem rows_effect (he : Effect env s e s') {v : User} (hv : v ∈ s'.users) :
    (∃ u ∈ s.users, Follows env e s'.passwords u v) ∨ Registered env s e s'.passwords v := by
  have hsame : ∀ {f : User → User} {passwords : List String}, (∀ u, (f u).pk = u.pk) →
      (∀ u, (f u).credentials = u.credentials) → ∀ u, Follows env e passwords u (f u) :=
    fun hf hc u => ⟨hf u, .inl (congrArg Credentials.jwtTokenKey (hc u)),
      .inl (congrArg Credentials.password (hc u))⟩
  have hkept : ∀ {passwords : List String}, v ∈ s.users →
      (∃ u ∈ s.users, Follows env e passwords u v) ∨ Registered env s e passwords v :=
    fun hmem => .inl ⟨v, hmem, rfl, .inl rfl, .inl rfl⟩
  have hinserted : ∀ {u : User} {users : Table User}, s.users.insert u = some users →
      u.pk = s.nextPk → u.jwtTokenKey = e.key → ∀ raw, u.password = env.makePassword raw e.salt →
      v ∈ users → (∃ w ∈ s.users, Follows env e (s.passwords ++ [u.password]) w v) ∨
        Registered env s e (s.passwords ++ [u.password]) v := by
    intro u users hinsert hpk hkey raw hpassword hmem
    rw [Table.mem_def, (Table.insert_eq_some hinsert).1, List.mem_append, List.mem_singleton]
      at hmem
    rcases hmem with hmem | rfl
    · exact hkept hmem
    · exact .inr ⟨hpk, hkey, ⟨raw, hpassword⟩,
        List.mem_append_right _ (List.mem_singleton_self _)⟩
  cases he with
  | same => exact hkept hv
  | tokenCreate u hu audience => exact .inl (exists_of_mem_loggedIn hv)
  | tokenRefresh t p u aud ht hp htype hu f hf hcredentials =>
    exact .inl (exists_of_mem_modify hv (hsame hf hcredentials))
  | tokensDeactivateAll auth hauth u hu =>
    rw [users_rekey] at hv
    exact .inl (exists_of_mem_modify hv fun _ => ⟨rfl, .inr rfl, .inl rfl⟩)
  | appAccessToken t ht u hu permissions aud => exact hkept hv
  | send v => exact hkept hv
  | sendAndTouch w u hu hw j f hf hcredentials =>
    exact .inl (exists_of_mem_modify hv (hsame hf hcredentials))
  | setPassword email raw token u hrequest hu hcheck => exact .inl (exists_of_mem_setPassword hv)
  | setPasswordAndLogin email raw token u w hrequest hu hcheck hw =>
    obtain ⟨x, hx, hxv⟩ := exists_of_mem_loggedIn (e := e) hv
    obtain ⟨y, hy, hyx⟩ := exists_of_mem_setPassword hx
    exact .inl ⟨y, hy, hyx.trans hxv⟩
  | passwordChange auth oldPassword raw hrequest u hu hvalid =>
    exact .inl (exists_of_mem_setPassword hv)
  | requestEmailChange p howner hkey => exact hkept hv
  | confirmEmailChange auth hauth u hu email hemail =>
    exact .inl (exists_of_mem_modify hv fun _ => ⟨rfl, .inl rfl, .inl rfl⟩)
  | accountRegister u users hinsert hpk hnew hkey raw hpassword =>
    exact hinserted hinsert hpk hkey raw hpassword hv
  | accountRegisterAndSend u users hinsert hpk hnew hkey raw hpassword =>
    exact hinserted hinsert hpk hkey raw hpassword hv
  | confirmAccount token htoken u hu hcheck =>
    exact .inl (exists_of_mem_modify hv fun _ => ⟨rfl, .inl rfl, .inl rfl⟩)
  | accountDelete auth hauth u hu => exact hkept (Table.mem_delete.mp hv).1
  | customerUpdate j hstaff email isActive isConfirmed hemail =>
    exact .inl (exists_of_mem_modify hv fun _ => ⟨rfl, .inl rfl, .inl rfl⟩)
  | customerDelete j hstaff => exact hkept (Table.mem_delete.mp hv).1

/-- What was drawn or given out stays so. -/
structure Grows (s s' : State τ) : Prop where
  keys : s.keys ⊆ s'.keys
  passwords : s.passwords ⊆ s'.passwords
  made : s.made ⊆ s'.made
  links : s.links ⊆ s'.links
  nextPk : s.nextPk ≤ s'.nextPk

theorem grows_effect (he : Effect env s e s') : Grows s s' := by
  have hself : ∀ {α : Type} (l l' : List α), l ⊆ l ++ l' := List.subset_append_left
  cases he <;> constructor <;>
    first
    | exact List.Subset.refl _
    | exact le_refl _
    | exact Nat.le_succ _
    | exact hself _ _
    | exact List.Subset.trans (hself _ _) (hself _ _)

/-! ### Deactivated tokens -/

/-- A column of a user has a value that was not there at some time; `drawn` are the values there
have been. -/
structure Renewed (drawn : State τ → List String) (column : User → String) (old : List String)
    (k : ℕ) (s : State τ) : Prop where
  subset : old ⊆ drawn s
  lt_nextPk : k < s.nextPk
  notMem : ∀ v ∈ s.users, v.pk = k → column v ∉ old

/-- A value that is new each time does not come back. -/
theorem Renewed.step {drawn : State τ → List String} {column : User → String} {old : List String}
    {k : ℕ} (h : Renewed drawn column old k s) (hnow : drawn { s with now := e.now } = drawn s)
    (hgrows : ∀ {s s' : State τ}, Grows s s' → drawn s ⊆ drawn s')
    (hnew : ∀ {passwords : List String} {u v : User}, Follows env e passwords u v →
      column v = column u ∨ column v ∉ drawn s) : Renewed drawn column old k (step env s e) := by
  have he := effect_step env s e
  have hdrawn := hgrows (grows_effect he)
  rw [hnow] at hdrawn
  refine ⟨List.Subset.trans h.subset hdrawn, h.lt_nextPk.trans_le (grows_effect he).nextPk,
    fun v hv hvk hold => ?_⟩
  rcases rows_effect he hv with ⟨u, hu, hfollows⟩ | hregistered
  · rcases hnew hfollows with hsame | hnew
    · exact h.notMem u hu (hfollows.pk.symm.trans hvk) (hsame ▸ hold)
    · exact hnew (h.subset hold)
  · exact absurd (hregistered.pk.symm.trans hvk) h.lt_nextPk.ne'

theorem renewed_step_key {old : List String} {k : ℕ}
    (h : Renewed State.keys User.jwtTokenKey old k s) (hok : e.Ok env s) :
    Renewed State.keys User.jwtTokenKey old k (step env s e) := by
  refine h.step rfl Grows.keys fun hfollows => ?_
  rcases hfollows.key with hsame | hkey
  · exact .inl hsame
  · refine .inr fun hmem => hok.key_new ?_
    rw [← hkey]
    exact hmem

theorem renewed_step_password {old : List String} {k : ℕ}
    (h : Renewed State.passwords User.password old k s) (hok : e.Ok env s) :
    Renewed State.passwords User.password old k (step env s e) := by
  refine h.step rfl Grows.passwords fun hfollows => ?_
  rcases hfollows.password with hsame | ⟨⟨raw, hpassword⟩, -⟩
  · exact .inl hsame
  · refine .inr fun hmem => hok.salt_new raw ?_
    rw [← hpassword]
    exact hmem

/-- **Deactivated tokens are dead.** After a user has deactivated the tokens, none that had been
made before, for whomever, is ever again accepted as this user, nor can it be refreshed. -/
theorem deactivated_run (h : Sound env s) (hok : e.Ok env s) {auth : Option τ}
    (hrequest : e.request = .tokensDeactivateAll auth)
    (hexec : exec env { s with now := e.now } e = .ok s') :
    ∃ t u p, auth = some t ∧ Accepted env { s with now := e.now } t u p ∧
      ∀ {es : List (Served τ η)} {r : State τ},
        EachStep (step env) (fun s e => e.Ok env s) s' es → Reached (step env) s' es r →
        ∀ t ∈ s.made, Unforged env r t →
          (∀ v, loadUserFromRequest env r (some t) = .ok (some v) → v.pk ≠ u.pk) ∧
          ∀ p, jwtDecode env r.now t = .ok p → ∀ v, getUserFromPayload r p = some v →
            v.pk ≠ u.pk := by
  have hnow := h.setNow e.now
  have hsound : Sound env s' :=
    sound_effect hnow hok.key_ne hok.key_new hok.unforged (effect_exec hexec)
  have hun : ∀ t ∈ auth.toList, Unforged env { s with now := e.now } t := by
    intro t ht
    refine hok.unforged t ?_
    rw [hrequest]
    exact ht
  simp only [exec, hrequest] at hexec
  obtain ⟨u', hu, hexec⟩ := exists_of_bind_eq_ok hexec
  obtain ⟨t, u, p, hauth, ha, rfl⟩ := exists_of_requestor hnow hun hu
  refine ⟨t, u, p, hauth, ha, fun {es r} hes hr t ht hunforged => ?_⟩
  have hrenewed : Renewed State.keys User.jwtTokenKey s.keys u.pk s' := by
    rw [← Except.ok.inj hexec]
    refine ⟨List.subset_append_left _ _, h.lt_nextPk u ha.mem, fun v hv hvk hold => ?_⟩
    rw [users_rekey] at hv
    obtain ⟨w, hw, rfl⟩ := mem_modify.mp hv
    split at hvk
    · rename_i hwk
      rw [if_pos hwk] at hold
      exact hok.key_new hold
    · rename_i hwk
      exact hwk hvk
  have hreached := hes.inv_reached (fun _ _ => renewed_step_key) hrenewed hr
  have hs := sound_reached hsound hes hr
  obtain ⟨q, rfl, -, hkeys⟩ := h.made t ht
  -- a key that was there before is not the key of the user now
  have hdead : ∀ v ∈ r.users, q.token = some v.jwtTokenKey → v.pk ≠ u.pk := fun v hv hkey hvk =>
    hreached.notMem v hv hvk (hkeys _ hkey)
  refine ⟨fun v hv => ?_, fun p hp v hv => ?_⟩
  · obtain ⟨w, p, hw, rfl⟩ := (loadUserFromRequest_eq_ok hs hunforged).mp hv
    have hmade := hs.current_made _ _ hw.current
    exact hdead w hw.mem ((hs.current_iff w hw.mem q hmade).mp hw.current)
  · obtain ⟨hpayload, -⟩ := (jwtDecode_eq_ok hs hunforged).mp hp
    obtain rfl := Option.some.inj ((env.jwt.payload_encode q).symm.trans hpayload)
    obtain ⟨hmem, -, hkey, -⟩ := getUserFromPayload_eq_some hv
    exact hdead v hmem hkey

/-- The visitor deactivates the tokens, and logs in again. -/
theorem deactivated_run_visit :
    let s := run (step plainEnv) plainStart visit
    let e : Served (Payload × Bool) LinkValue :=
      ⟨.tokensDeactivateAll (some visitToken), 5000000, "k5", "s5", "c5"⟩
    let again : Served (Payload × Bool) LinkValue :=
      ⟨.tokenCreate "a@b.c" "swordfish" none, 6000000, "k6", "s6", "c6"⟩
    ∀ v, loadUserFromRequest plainEnv (run (step plainEnv) s [e, again]) (some visitToken)
      = .ok (some v) → v.pk ≠ 1 := by
  intro s e again v
  have hs : Sound plainEnv s := sound_reached (Sound.empty 1 0) visit_ok (reached_run _ visit)
  have hexec : exec plainEnv { s with now := e.now } e = .ok (step plainEnv s e) := rfl
  obtain ⟨t, u, p, ht, ha, hdead⟩ := deactivated_run hs (plain_ok (by decide)) rfl hexec
  obtain rfl := Option.some.inj ht
  have hpk : ∀ w ∈ (run (step plainEnv) plainStart visit).users.rows, w.pk = 1 := by decide
  rw [← hpk u ha.mem]
  have hagain : EachStep (step plainEnv) (fun s e => e.Ok plainEnv s) (step plainEnv s e) [again] :=
    ⟨plain_ok (by decide), trivial⟩
  exact (hdead hagain (reached_run _ [again]) visitToken (by decide) fun _ => by decide).1 v

end Sessions

end Aixinwu
