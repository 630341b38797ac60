import Aixinwu.Account.SessionRuns

/-!
# Who can change an account

Three things entitle to a change of an account: a token that stands for its user, a link that was
sent for it, and the permission of the staff. **`guarded_run`** says which of them each column of a
row needs, and what it needs for the row to go. It is about one request, in a state that other
requests have led to; what is known of such states is what makes it worth something, since a token
that is accepted was made for the user, and a link was sent for the row as it is.

Hashes of passwords do not repeat. So when a password is set, all links that were sent before are
dead (**`links_dead_run`**), and no link sets a password twice (**`setPassword_once`**). Nothing of
the kind holds of confirming an account: it changes no column that the link is made of.

## Main definitions

* `BySession`, `ByPassword`, `ByLink`, `Guarded`, `Fate`
* `Hashed` — the invariant: there is a record of every password

## Main results

* `guarded_run`
* `links_dead_run`, `setPassword_once`
-/

namespace Aixinwu

namespace Sessions

open Runs

variable {τ η : Type} {env : Env τ η} {s s' r : State τ} {e : Served τ η} {es : List (Served τ η)}

/-! ### What each column needs -/

/-- A token that stands for the user comes with the request. -/
def BySession (env : Env τ η) (s : State τ) (e : Served τ η) (u : User) : Prop :=
  ∃ t ∈ e.request.tokens, ∃ p, Accepted env s t u p

/-- The old password comes with the request, or there is none that can be used. -/
def ByPassword (env : Env τ η) (e : Served τ η) (u : User) : Prop :=
  ∃ auth oldPassword raw, e.request = .passwordChange auth oldPassword raw ∧
    oldPasswordValid env oldPassword u = true

/-- A link that was sent for the row as it is, and not too long ago, comes with the request. -/
def ByLink (env : Env τ η) (value : User → ℤ → LinkValue) (s : State τ) (e : Served τ η)
    (u : User) : Prop :=
  ∃ l ∈ e.request.links, value u l.timestamp ∈ s.links ∧
    env.linkHash (value u l.timestamp) = l.hash ∧
    seconds s.now ≤ l.timestamp + env.passwordResetTimeout

/-- What it takes for each column of a row to change. -/
structure Guarded (env : Env τ η) (s : State τ) (e : Served τ η) (u v : User) : Prop where
  key : v.jwtTokenKey ≠ u.jwtTokenKey → BySession env s e u
  password : v.password ≠ u.password →
    BySession env s e u ∧ ByPassword env e u ∨ ByLink env linkValue s e u
  email : v.email ≠ u.email → BySession env s e u ∨ e.request.byStaff = true
  isActive : v.isActive ≠ u.isActive →
    v.isActive = true ∧ ByLink env linkValue s e u ∨ e.request.byStaff = true
  isConfirmed : v.isConfirmed ≠ u.isConfirmed →
    v.isConfirmed = true ∧ ByLink env linkValue s e u ∨ e.request.byStaff = true
  isStaff : v.isStaff = u.isStaff
  isSuperuser : v.isSuperuser = u.isSuperuser

/-- What may become of a row: it is there with the columns that may change, or it is gone. -/
def Fate (env : Env τ η) (s s' : State τ) (e : Served τ η) (u : User) : Prop :=
  (∃ v ∈ s'.users, v.pk = u.pk ∧ Guarded env s e u v) ∨
    (∀ v ∈ s'.users, v.pk ≠ u.pk) ∧
      (BySession env s e u ∧ ByLink env deleteLinkValue s e u ∨ e.request.byStaff = true)

theorem Guarded.refl (u : User) : Guarded env s e u u :=
  ⟨fun hne => absurd rfl hne, fun hne => absurd rfl hne, fun hne => absurd rfl hne,
    fun hne => absurd rfl hne, fun hne => absurd rfl hne, rfl, rfl⟩

theorem Guarded.of_credentials {u v w : User} (h : Guarded env s e u v)
    (hsame : w.credentials = v.credentials) : Guarded env s e u w where
  key hne := h.key fun heq => hne ((congrArg Credentials.jwtTokenKey hsame).trans heq)
  password hne := h.password fun heq => hne ((congrArg Credentials.password hsame).trans heq)
  email hne := h.email fun heq => hne ((congrArg Credentials.email hsame).trans heq)
  isActive hne := by
    have hactive : w.isActive = v.isActive := congrArg Credentials.isActive hsame
    rw [hactive] at hne ⊢
    exact h.isActive hne
  isConfirmed hne := by
    have hconfirmed : w.isConfirmed = v.isConfirmed := congrArg Credentials.isConfirmed hsame
    rw [hconfirmed] at hne ⊢
    exact h.isConfirmed hne
  isStaff := (congrArg Credentials.isStaff hsame).trans h.isStaff
  isSuperuser := (congrArg Credentials.isSuperuser hsame).trans h.isSuperuser

theorem fate_of_mem {u : User} (hu : u ∈ s'.users) : Fate env s s' e u :=
  .inl ⟨u, hu, rfl, .refl u⟩

/-- Another column changes. -/
theorem Fate.touch {t : State τ} {u : User} (h : Fate env s t e u) {k : ℕ} {f : User → User}
    {hf : ∀ u, (f u).pk = u.pk} (hsame : ∀ u, (f u).credentials = u.credentials) :
    Fate env s (t.modify k f hf) e u := by
  have hpk : ∀ v : User, (if v.pk = k then f v else v).pk = v.pk := pk_modified hf
  rcases h with ⟨v, hv, hvk, hguarded⟩ | ⟨hgone, hby⟩
  · refine .inl ⟨_, mem_modify.mpr ⟨v, hv, rfl⟩, (hpk v).trans hvk, ?_⟩
    split
    · exact hguarded.of_credentials (hsame v)
    · exact hguarded
  · refine .inr ⟨fun w hw => ?_, hby⟩
    obtain ⟨v, hv, rfl⟩ := mem_modify.mp hw
    rw [hpk]
    exact hgone v hv

/-- A column changes that is guarded. -/
theorem fate_modify {k : ℕ} {f : User → User} {hf : ∀ u, (f u).pk = u.pk} {u : User}
    (hu : u ∈ s.users) (hguarded : u.pk = k → Guarded env s e u (f u)) :
    Fate env s (s.modify k f hf) e u := by
  refine .inl ⟨if u.pk = k then f u else u, mem_modify.mpr ⟨u, hu, rfl⟩, ?_⟩
  split
  · rename_i huk
    exact ⟨hf u, hguarded huk⟩
  · exact ⟨rfl, .refl u⟩

/-- The row of a user goes, if that. -/
theorem fate_deleteUser {k : ℕ} {u : User} (hu : u ∈ s.users)
    (hby : u.pk = k → BySession env s e u ∧ ByLink env deleteLinkValue s e u ∨
      e.request.byStaff = true) :
    Fate env s (s.deleteUser k) e u := by
  by_cases huk : u.pk = k
  · refine .inr ⟨fun v hv hvk => ?_, hby huk⟩
    exact of_decide_eq_false (Table.mem_delete.mp hv).2 (hvk.trans huk)
  · exact fate_of_mem (Table.mem_delete.mpr ⟨hu, decide_eq_false huk⟩)

theorem fate_insertUser {u v : User} {users : Table User} (hinsert : s.users.insert v = some users)
    (hu : u ∈ s.users) : Fate env s (s.insertUser v users) e u := by
  refine fate_of_mem ?_
  rw [Table.mem_def, State.insertUser, (Table.insert_eq_some hinsert).1]
  exact List.mem_append_left _ hu

theorem fate_setPassword {k : ℕ} {password : String} {u : User} (hu : u ∈ s.users)
    (hby : u.pk = k → BySession env s e u ∧ ByPassword env e u ∨ ByLink env linkValue s e u) :
    Fate env s (s.setPassword k password) e u := by
  have hmodify : Fate env s (s.modify k (fun row => { row with password }) fun _ => rfl) e u :=
    fate_modify hu fun huk => ⟨fun hne => absurd rfl hne, fun _ => hby huk,
      fun hne => absurd rfl hne, fun hne => absurd rfl hne, fun hne => absurd rfl hne, rfl, rfl⟩
  exact hmodify

theorem fate_rekey {k : ℕ} {key : String} {u : User} (hu : u ∈ s.users)
    (hby : u.pk = k → BySession env s e u) : Fate env s (s.rekey k key) e u := by
  have hmodify : Fate env s (s.modify k (fun row => { row with jwtTokenKey := key }) fun _ => rfl)
      e u :=
    fate_modify hu fun huk => ⟨fun _ => hby huk, fun hne => absurd rfl hne,
      fun hne => absurd rfl hne, fun hne => absurd rfl hne, fun hne => absurd rfl hne, rfl, rfl⟩
  exact hmodify

/-- The user of a request is there, and comes with a token. -/
theorem bySession_of_requestor (h : Sound env s) (hun : ∀ t ∈ e.request.tokens, Unforged env s t)
    {auth : Option τ} (hauth : auth.toList ⊆ e.request.tokens) {u u' : User} (hu : u ∈ s.users)
    (hok : requestor env s auth = .ok u') (hpk : u.pk = u'.pk) :
    BySession env s e u := by
  obtain ⟨t, w, p, rfl, ha, rfl⟩ := exists_of_requestor h (fun t ht => hun t (hauth ht)) hok
  obtain rfl := Table.eq_of_pk_eq hu ha.mem hpk
  exact ⟨t, hauth (List.mem_singleton_self t), p, ha⟩

/-- Logging in changes no password. -/
theorem password_of_mem_loggedIn {u w : User} {audience : Option String} {csrf password : String}
    {k : ℕ} (h : ∀ v ∈ s.users, v.pk = k → v.password = password)
    (hw : w ∈ (loggedIn env s u audience csrf).users) (hwk : w.pk = k) : w.password = password := by
  rw [users_loggedIn] at hw
  obtain ⟨v, hv, rfl⟩ := mem_modify.mp hw
  split at hwk <;> rename_i hvu
  · rw [if_pos hvu]
    exact h v hv hwk
  · rw [if_neg hvu]
    exact h v hv hwk

variable [DecidableEq η]

/-- A link that is right was sent. -/
theorem byLink_of_checkToken
    (hsent : ∀ l ∈ e.request.links, ∀ v, env.linkHash v = l.hash → v ∈ s.links)
    {l : LinkToken η} (hl : l ∈ e.request.links) {value : User → ℤ → LinkValue} {u : User}
    (hcheck : checkToken env value s.now u l = true) : ByLink env value s e u := by
  rw [checkToken, Bool.and_eq_true, decide_eq_true_eq, decide_eq_true_eq] at hcheck
  exact ⟨l, hl, hsent l hl _ hcheck.1, hcheck.1, by omega⟩

/-- What a request does to a row. -/
theorem fate_effect (h : Sound env s) (hun : ∀ t ∈ e.request.tokens, Unforged env s t)
    (hsent : ∀ l ∈ e.request.links, ∀ v, env.linkHash v = l.hash → v ∈ s.links)
    (he : Effect env s e s') {u : User} (hu : u ∈ s.users) : Fate env s s' e u := by
  have hlink : ∀ {email raw : String} {l : LinkToken η} {w : User},
      e.request = .setPassword email raw l → w ∈ s.users →
      checkToken env linkValue s.now w l = true → u.pk = w.pk →
      BySession env s e u ∧ ByPassword env e u ∨ ByLink env linkValue s e u := by
    intro email raw l w hrequest hw hcheck hpk
    obtain rfl := Table.eq_of_pk_eq hu hw hpk
    have hmem : l ∈ e.request.links := by
      rw [hrequest]
      exact List.mem_singleton_self l
    exact .inr (byLink_of_checkToken hsent hmem hcheck)
  cases he with
  | same => exact fate_of_mem hu
  | tokenCreate w hw audience => exact (fate_of_mem hu).touch fun _ => rfl
  | tokenRefresh t p w aud ht hp htype hw f hf hcredentials =>
    exact Fate.touch (t := s.issue _ _) (fate_of_mem hu) hcredentials
  | tokensDeactivateAll auth hauth w hw =>
    exact fate_rekey hu fun huk => bySession_of_requestor h hun hauth hu hw huk
  | appAccessToken t ht w hw permissions aud => exact fate_of_mem hu
  | send v => exact fate_of_mem hu
  | sendAndTouch v w hw hv k f hf hcredentials =>
    exact Fate.touch (t := s.send v) (fate_of_mem hu) hcredentials
  | setPassword email raw token w hrequest hw hcheck =>
    exact fate_setPassword hu (hlink hrequest hw hcheck)
  | setPasswordAndLogin email raw token w x hrequest hw hcheck hx =>
    exact (fate_setPassword hu (hlink hrequest hw hcheck)).touch fun _ => rfl
  | passwordChange auth oldPassword raw hrequest w' hw hvalid =>
    have hauth : auth.toList ⊆ e.request.tokens := by
      rw [hrequest]
      exact List.Subset.refl _
    refine fate_setPassword hu fun huk => .inl ⟨bySession_of_requestor h hun hauth hu hw huk, ?_⟩
    obtain ⟨w, hmem, p, rfl⟩ := mem_of_requestor hw
    obtain rfl := Table.eq_of_pk_eq hu hmem huk
    exact ⟨auth, oldPassword, raw, hrequest, hvalid⟩
  | requestEmailChange p howner hkey => exact fate_of_mem hu
  | confirmEmailChange auth hauth w hw email hemail =>
    exact fate_modify hu fun huk => ⟨fun hne => absurd rfl hne, fun hne => absurd rfl hne,
      fun _ => .inl (bySession_of_requestor h hun hauth hu hw huk), fun hne => absurd rfl hne,
      fun hne => absurd rfl hne, rfl, rfl⟩
  | accountRegister w users hinsert => exact fate_insertUser hinsert hu
  | accountRegisterAndSend w users hinsert => exact fate_insertUser hinsert hu
  | confirmAccount token htoken w hw hcheck =>
    refine fate_modify hu fun huk => ?_
    obtain rfl := Table.eq_of_pk_eq hu hw huk
    have hby := byLink_of_checkToken hsent htoken hcheck
    exact ⟨fun hne => absurd rfl hne, fun hne => absurd rfl hne, fun hne => absurd rfl hne,
      fun _ => .inl ⟨rfl, hby⟩, fun _ => .inl ⟨rfl, hby⟩, rfl, rfl⟩
  | accountDelete auth hauth w' hw token htoken hcheck =>
    refine fate_deleteUser hu fun huk => .inl ⟨bySession_of_requestor h hun hauth hu hw huk, ?_⟩
    obtain ⟨w, hmem, p, rfl⟩ := mem_of_requestor hw
    obtain rfl := Table.eq_of_pk_eq hu hmem huk
    exact byLink_of_checkToken (u := u) hsent htoken hcheck
  | customerUpdate k hstaff email isActive isConfirmed hemail =>
    exact fate_modify hu fun _ => ⟨fun hne => absurd rfl hne, fun hne => absurd rfl hne,
      fun _ => .inr hstaff, fun _ => .inr hstaff, fun _ => .inr hstaff, rfl, rfl⟩
  | customerDelete k hstaff => exact fate_deleteUser hu fun _ => .inr hstaff

/-- **What becomes of a row**, in every state of a run, whoever makes the request. Only its user
changes the key, and the password with the old one, but for a link that was sent for the row as it
is; only its user or the staff changes the address; only by a link or by the staff is the user let
in, and only by the staff shut out; nobody is made staff; and to go it takes the user and a link for
it, or the staff. -/
theorem guarded_run (h : Sound env s) (hes : EachStep (step env) (fun s e => e.Ok env s) s es)
    (hr : Reached (step env) s es r) (hok : e.Ok env r) {u : User} (hu : u ∈ r.users) :
    Fate env { r with now := e.now } (step env r e) e u :=
  fate_effect ((sound_reached h hes hr).setNow e.now) hok.unforged hok.links_sent
    (effect_step env r e) hu

/-- The link of the visit that sets a password, as it is sent. -/
def resetLink : LinkToken LinkValue := ⟨4, linkValue visitor 4⟩

/-- The visitor sets a password by it. -/
theorem guarded_run_visit :
    let r := run (step plainEnv) plainStart visit
    let e : Served (Payload × Bool) LinkValue :=
      ⟨.setPassword "a@b.c" "marlinspike" resetLink, 5000000, "k5", "s5", "c5"⟩
    Fate plainEnv { r with now := e.now } (step plainEnv r e) e visitor :=
  guarded_run (Sound.empty 1 0) visit_ok (reached_run plainStart visit) (plain_ok (by decide))
    (Table.mem_def.mpr (by decide))

/-! ### Passwords and links -/

/-- There is a record of the passwords of users and in links. -/
structure Hashed (s : State τ) : Prop where
  password : ∀ u ∈ s.users, u.password ∈ s.passwords
  link : ∀ v ∈ s.links, v.password ∈ s.passwords

/-- The links after a request: another one is for a row that there is. -/
theorem links_effect (he : Effect env s e s') {v : LinkValue} (hv : v ∈ s'.links) :
    v ∈ s.links ∨ (∃ u ∈ s.users, v.password = u.password) ∨
      ∃ u ∈ s'.users, v.password = u.password := by
  have hsent : ∀ {w : LinkValue} {links : List LinkValue}, v ∈ links ++ [w] →
      v ∈ links ∨ v = w := fun h => by rwa [List.mem_append, List.mem_singleton] at h
  cases he with
  | send w u hu hw =>
    rcases hsent hv with hold | rfl
    · exact .inl hold
    · exact .inr (.inl ⟨u, hu, hw⟩)
  | sendAndTouch w u hu hw =>
    rcases hsent hv with hold | rfl
    · exact .inl hold
    · exact .inr (.inl ⟨u, hu, hw⟩)
  | accountRegisterAndSend u users hinsert hpk hnew hkey raw hpassword w hw =>
    rcases hsent hv with hold | rfl
    · exact .inl hold
    · have hmem : u ∈ users.rows := by
        rw [(Table.insert_eq_some hinsert).1]
        exact List.mem_append_right _ (List.mem_singleton_self u)
      exact .inr (.inr ⟨u, hmem, hw⟩)
  | _ => exact .inl hv

theorem hashed_empty {nextPk : ℕ} {now : Time} :
    Hashed { users := .empty, nextPk, now : State τ } :=
  ⟨fun _ hu => absurd hu List.not_mem_nil, fun _ hv => absurd hv List.not_mem_nil⟩

theorem Hashed.effect (h : Hashed s) (he : Effect env s e s') : Hashed s' := by
  have hgrows := (grows_effect he).passwords
  have hpassword : ∀ v ∈ s'.users, v.password ∈ s'.passwords := by
    intro v hv
    rcases rows_effect he hv with ⟨u, hu, hfollows⟩ | hregistered
    · rcases hfollows.password with hsame | ⟨-, hnew⟩
      · exact hsame ▸ hgrows (h.password u hu)
      · exact hnew
    · exact hregistered.password.2
  refine ⟨hpassword, fun v hv => ?_⟩
  rcases links_effect he hv with hold | ⟨u, hu, hw⟩ | ⟨u, hu, hw⟩
  · exact hgrows (h.link v hold)
  · exact hw ▸ hgrows (h.password u hu)
  · exact hw ▸ hpassword u hu

theorem Hashed.step (h : Hashed s) : Hashed (step env s e) :=
  Hashed.effect (s := { s with now := e.now }) ⟨h.password, h.link⟩ (effect_step env s e)

theorem hashed_reached (h : Hashed s) (hr : Reached (step env) s es r) : Hashed r :=
  (eachStep_true s es).inv_reached (fun _ _ h _ => h.step) h hr

/-- A link that is right is made of the row. -/
theorem eq_of_checkToken {value : User → ℤ → LinkValue} {now : Time} {u : User} {l : LinkToken η}
    {v : LinkValue} (hv : env.linkHash v = l.hash) (hcheck : checkToken env value now u l = true) :
    value u l.timestamp = v := by
  rw [checkToken, Bool.and_eq_true, decide_eq_true_eq] at hcheck
  exact env.linkHash_injective (hcheck.1.trans hv.symm)

/-- After a request that changes a password, it is none that there ever was. -/
theorem renewed_of_ne (h : Sound env s) (hok : e.Ok env s) {u v : User} (hu : u ∈ s.users)
    (hv : v ∈ (step env s e).users) (hpk : v.pk = u.pk) (hne : v.password ≠ u.password) :
    Renewed State.passwords User.password s.passwords u.pk (step env s e) := by
  have he := effect_step env s e
  refine ⟨(grows_effect he).passwords, (h.lt_nextPk u hu).trans_le (grows_effect he).nextPk,
    fun w hw hwk => ?_⟩
  rw [Table.eq_of_pk_eq hw hv (hwk.trans hpk.symm)]
  rcases rows_effect he hv with ⟨x, hx, hfollows⟩ | hregistered
  · obtain rfl := Table.eq_of_pk_eq hx hu (hfollows.pk.symm.trans hpk)
    rcases hfollows.password with hsame | ⟨⟨raw, hnew⟩, -⟩
    · exact absurd hsame hne
    · exact hnew ▸ hok.salt_new raw
  · exact absurd (hregistered.pk.symm.trans hpk) (h.lt_nextPk u hu).ne'

/-- **Links are dead once the password is another one.** None of the links that had been sent before
is good for this user any more, neither to set a password or to confirm the account nor to delete
it. -/
theorem links_dead_run (h : Sound env s) (hhashed : Hashed s)
    (hes : EachStep (step env) (fun s e => e.Ok env s) s es) (hr : Reached (step env) s es r)
    (hok : e.Ok env r) {u v : User} (hu : u ∈ r.users) (hv : v ∈ (step env r e).users)
    (hpk : v.pk = u.pk) (hne : v.password ≠ u.password) {es' : List (Served τ η)} {r' : State τ}
    (hes' : EachStep (step env) (fun s e => e.Ok env s) (step env r e) es')
    (hr' : Reached (step env) (step env r e) es' r') {l : LinkToken η} {w : LinkValue}
    (hw : w ∈ r.links) (hl : env.linkHash w = l.hash) {u' : User} (hu' : u' ∈ r'.users)
    (hpk' : u'.pk = u.pk) :
    checkToken env linkValue r'.now u' l = false ∧
      checkToken env deleteLinkValue r'.now u' l = false := by
  have hrenewed := hes'.inv_reached (fun _ _ => renewed_step_password)
    (renewed_of_ne (sound_reached h hes hr) hok hu hv hpk hne) hr'
  have hold : w.password ∈ r.passwords := (hashed_reached hhashed hr).link w hw
  have hdead : ∀ {value : User → ℤ → LinkValue}, (∀ t, (value u' t).password = u'.password) →
      checkToken env value r'.now u' l = false := by
    intro value hvalue
    rw [Bool.eq_false_iff]
    intro hcheck
    refine hrenewed.notMem u' hu' hpk' ?_
    rw [← hvalue l.timestamp, eq_of_checkToken hl hcheck]
    exact hold
  exact ⟨hdead fun _ => rfl, hdead fun _ => rfl⟩

/-- The visitor gives another password, and does not need the link any more. -/
theorem links_dead_run_visit :
    let r := run (step plainEnv) plainStart visit
    let e : Served (Payload × Bool) LinkValue :=
      ⟨.passwordChange (some visitToken) (some "swordfish") "marlinspike", 5000000, "k5", "s5",
        "c5"⟩
    let s := step plainEnv r e
    ∀ u ∈ s.users, checkToken plainEnv linkValue s.now u resetLink = false ∧
      checkToken plainEnv deleteLinkValue s.now u resetLink = false := by
  intro r e s u hu
  have hpk : ∀ v ∈ s.users.rows, v.pk = visitor.pk := by decide
  have hvisitor : visitor ∈ r.users := Table.mem_def.mpr (by decide)
  have hv : { visitor with password := "s5$marlinspike" } ∈ s.users :=
    Table.mem_def.mpr (by decide)
  exact links_dead_run (Sound.empty 1 0) hashed_empty visit_ok (reached_run plainStart visit)
    (plain_ok (by decide)) hvisitor hv rfl (by decide) (eachStep_nil _) (reached_run _ [])
    (by decide) rfl hu (hpk u hu)

/-- A request that sets a password by a link with this hash. -/
def setsPassword (env : Env τ η) (hash : η) (s : State τ) (e : Served τ η) : Bool :=
  match e.request with
  | .setPassword _ _ token =>
    decide (token.hash = hash) && (exec env { s with now := e.now } e).toOption.isSome
  | _ => false

/-- What setting a password takes, and leaves. -/
theorem setsPassword_eq_true {hash : η} (h : setsPassword env hash s e = true) :
    ∃ u ∈ s.users, ∃ raw timestamp, env.linkHash (linkValue u timestamp) = hash ∧
      ∀ v ∈ (step env s e).users, v.pk = u.pk → v.password = env.makePassword raw e.salt := by
  rw [setsPassword] at h
  split at h
  · rename_i email raw token hrequest
    rw [Bool.and_eq_true, decide_eq_true_eq] at h
    obtain ⟨rfl, hsome⟩ := h
    cases hexec : exec env { s with now := e.now } e with
    | error x =>
      rw [hexec] at hsome
      cases hsome
    | ok s' =>
      rw [step, hexec]
      rw [exec, hrequest] at hexec
      obtain ⟨t, hset, hexec⟩ := exists_of_map_eq_ok hexec
      obtain ⟨u, hu, hset⟩ := exists_of_bind_eq_ok hset
      obtain ⟨_, hcheck, hset⟩ := exists_of_bind_eq_ok hset
      obtain ⟨_, -, hset⟩ := exists_of_bind_eq_ok hset
      rw [ensure_eq_ok, checkToken, Bool.and_eq_true, decide_eq_true_eq] at hcheck
      obtain rfl := Except.ok.inj hset
      refine ⟨u, mem_of_getByEmail (demand_eq_ok.mp hu), raw, _, hcheck.1, ?_⟩
      have hrow : ∀ w ∈ (State.setPassword { s with now := e.now } u.pk
          (env.makePassword raw e.salt)).users,
          w.pk = u.pk → w.password = env.makePassword raw e.salt := by
        intro w hw hwk
        rw [users_setPassword] at hw
        obtain ⟨x, hx, rfl⟩ := mem_modify.mp hw
        split
        · rfl
        · rename_i hxk
          rw [if_neg hxk] at hwk
          exact absurd hwk hxk
      rw [← hexec]
      dsimp only
      split
      · rename_i hlogin
        obtain ⟨x, -, rfl⟩ := effect_tokenCreate hlogin
        exact fun v hv hvk => password_of_mem_loggedIn hrow hv hvk
      · exact hrow
  · cases h

/-- **No link sets a password twice.** -/
theorem setPassword_once (h : Sound env s) (hhashed : Hashed s)
    (hes : EachStep (step env) (fun s e => e.Ok env s) s es) (hash : η) :
    countSteps (step env) (setsPassword env hash) s es ≤ 1 := by
  refine EachStep.countSteps_le_one (fun s => Sound env s ∧ Hashed s)
    (fun s => ∃ w, env.linkHash w = hash ∧
      Renewed State.passwords User.password [w.password] w.pk s)
    (fun _ _ hs hok => ⟨sound_step hs.1 hok, hs.2.step⟩)
    (fun _ _ hdone hok => ?_) (fun s e hdone => ?_) (fun s e hs hok hset => ?_) hes ⟨h, hhashed⟩
  · obtain ⟨w, hw, hrenewed⟩ := hdone
    exact ⟨w, hw, renewed_step_password hrenewed hok⟩
  · obtain ⟨w, hw, hrenewed⟩ := hdone
    rw [Bool.eq_false_iff]
    intro hset
    obtain ⟨u, hu, raw, timestamp, hhash, -⟩ := setsPassword_eq_true hset
    obtain rfl := env.linkHash_injective (hw.trans hhash.symm)
    exact hrenewed.notMem u hu rfl (List.mem_singleton_self _)
  · obtain ⟨u, hu, raw, timestamp, hhash, hrow⟩ := setsPassword_eq_true hset
    have hold := hs.2.password u hu
    have hgrows := grows_effect (effect_step env s e)
    refine ⟨linkValue u timestamp, hhash, ?_, (hs.1.lt_nextPk u hu).trans_le hgrows.nextPk,
      fun v hv hvk hmem => ?_⟩
    · intro x hx
      rw [List.mem_singleton.mp hx]
      exact hgrows.passwords hold
    · rw [hrow v hv hvk, List.mem_singleton] at hmem
      exact hok.salt_new raw (hmem ▸ hold)

/-- The visitor tries the link twice. -/
theorem setPassword_once_visit :
    let again : Served (Payload × Bool) LinkValue :=
      ⟨.setPassword "a@b.c" "marlinspike" resetLink, 5000000, "k5", "s5", "c5"⟩
    let later := { again with now := 6000000, key := "k6", salt := "s6", csrf := "c6" }
    countSteps (step plainEnv) (setsPassword plainEnv resetLink.hash) plainStart
      (visit ++ [again, later]) ≤ 1 := by
  intro again later
  have hagain : EachStep (step plainEnv) (fun s e => e.Ok plainEnv s)
      (run (step plainEnv) plainStart visit) [again, later] :=
    ⟨plain_ok (by decide), plain_ok (by decide), trivial⟩
  exact setPassword_once (Sound.empty 1 0) hashed_empty
    ((eachStep_append _ _ _).mpr ⟨visit_ok, hagain⟩) _

end Sessions

end Aixinwu
