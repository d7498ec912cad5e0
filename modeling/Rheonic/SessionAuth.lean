import Rheonic.AuthService

namespace CommandProgram.Pool
open Program (Machine)

variable {Call C : Type} {R : C → Type} {ε α S : Type}

def calls (p : Pool Call C R ε α S) : List Call :=
  p.running.map Prod.fst ++ p.answered.map Prod.fst

theorem mem_calls_settle {p : Pool Call C R ε α S} {call call' : Call} {q : Program C R ε α}
    (h : call' ∈ (p.settle call q).calls) : call' = call ∨ call' ∈ p.calls := by
  unfold settle at h
  cases hq : q.outcome with
  | some o =>
    rw [hq] at h
    simp only [calls, List.map_cons, List.mem_append, List.mem_cons] at h ⊢
    rcases h with h | h | h
    · exact .inr (.inl h)
    · exact .inl h
    · exact .inr (.inr h)
  | none =>
    rw [hq] at h
    simp only [calls, List.map_cons, List.mem_append, List.mem_cons] at h ⊢
    rcases h with (h | h) | h
    · exact .inl h
    · exact .inr (.inl h)
    · exact .inr (.inr h)

theorem mem_calls_act {m : Machine C R ε S} {body : Call → Program C R ε α}
    {p : Pool Call C R ε α S} {action : PoolAction Call} {call : Call}
    (h : call ∈ (p.act m body action).calls) : call ∈ p.calls ∨ action = .start call := by
  cases action with
  | start call' =>
    rcases mem_calls_settle h with heq | hmem
    · exact .inr (by rw [heq])
    · exact .inl hmem
  | issue i =>
    left
    unfold act at h
    dsimp only at h
    split at h
    next call' c k hi =>
      have hin : (call', Program.call c k) ∈ p.running := List.mem_of_getElem? hi
      rcases mem_calls_settle h with heq | hmem
      · rw [heq]
        exact List.mem_append_left _ (List.mem_map_of_mem (f := Prod.fst) hin)
      · rcases List.mem_append.mp hmem with hrunning | hanswered
        · obtain ⟨e, he, hfst⟩ := List.mem_map.mp hrunning
          rw [← hfst]
          exact List.mem_append_left _
            (List.mem_map_of_mem (List.mem_of_mem_eraseIdx he))
        · exact List.mem_append_right _ hanswered
    next => exact h

theorem answered_act {m : Machine C R ε S} {body : Call → Program C R ε α}
    {p : Pool Call C R ε α S} {action : PoolAction Call} {call : Call} {o : Except ε α}
    (h : (p.act m body action).answered = (call, o) :: p.answered) :
    action = .start call ∧ (body call).outcome = some o ∨
      ∃ i c k, action = .issue i ∧ p.running[i]? = some (call, .call c k) ∧
        (k (m c p.state).1).outcome = some o := by
  have hne : p.answered ≠ (call, o) :: p.answered := by
    intro heq
    have hlength := congrArg List.length heq
    rw [List.length_cons] at hlength
    omega
  cases action with
  | start call' =>
    rcases settle_answered p call' (body call') with ha | ⟨o', ho, ha⟩
    · exact absurd (ha.symm.trans h) hne
    · obtain ⟨hcall, ho'⟩ := Prod.mk.inj (List.head_eq_of_cons_eq (ha.symm.trans h))
      exact .inl ⟨by rw [hcall], by rw [← hcall, ho, ho']⟩
  | issue i =>
    unfold act at h
    dsimp only at h
    split at h
    next call' c k hi =>
      rcases settle_answered (Pool.mk (m c p.state).2 (p.running.eraseIdx i) p.answered) call'
          (k (m c p.state).1) with ha | ⟨o', ho, ha⟩
      · exact absurd (ha.symm.trans h) hne
      · obtain ⟨hcall, ho'⟩ := Prod.mk.inj (List.head_eq_of_cons_eq (ha.symm.trans h))
        exact .inr ⟨i, c, k, rfl, by rw [hi, hcall], by rw [ho, ho']⟩
    next => exact absurd h hne

end CommandProgram.Pool

namespace Rheonic.SessionAuth
open CommandProgram RowTable PyText RefreshSessionRepository AuthService

/-- A call of the service with the times that its two tokens are issued at, in seconds. -/
structure TokenCall where
  call : Call
  accessAt : ℕ
  refreshAt : ℕ

/-- The tokens that a call has handed out. -/
structure Grant where
  user : User
  jti : String
  accessAt : ℕ
  refreshAt : ℕ

/-- What a client may present: a token that was handed out, or a text that bears no signature of
the service. -/
inductive Token
  | access (grant : Grant)
  | refresh (grant : Grant)
  | unsigned

/-- The calls side by side over one session table. -/
abbrev Service :=
  Pool TokenCall Command Reply RefreshSessionRepository.Exn (Option Issued) Sessions

abbrev Outcome := Except RefreshSessionRepository.Exn (Option Issued)

section Tokens

variable (settings : Settings)

/-- The claims of a token whose signature and expiry hold. -/
def decodeAccessToken (now : ℕ) : Token → Option TokenPayload
  | .access g =>
    if now ≤ g.accessAt + settings.jwtExpiresMin * 60 then
      some ⟨some "access", some g.user.id, none⟩
    else none
  | .refresh g =>
    if now ≤ g.refreshAt + settings.jwtRefreshExpiresMin * 60 then
      some ⟨some "refresh", some g.user.id, some g.jti⟩
    else none
  | .unsigned => none

/-- The user of a request, by its access cookie. A token without a type counts as one of access. -/
def getCurrentUser (findUser : String → Option User) (now : ℕ) (cookie : Option Token) :
    Except RefreshSessionRepository.Exn User :=
  match cookie with
  | none => .error (.http 401 "not authenticated")
  | some token =>
    match (decodeAccessToken settings now token).bind fun payload =>
      if orElse payload.typ "access" = "access" then (truthy payload.sub).bind findUser
      else none with
    | none => .error (.http 401 "invalid token")
    | some user => .ok user

def FindsById (findUser : String → Option User) : Prop :=
  ∀ id user, findUser id = some user → user.id = id

def grantOf : TokenCall × Outcome → Option Grant
  | (call, .ok (some issued)) => some ⟨issued.user, issued.jti, call.accessAt, call.refreshAt⟩
  | _ => none

def grants (s : Service) : List Grant := s.answered.filterMap grantOf

def Circulates (s : Service) : Token → Prop
  | .access g => g ∈ grants s
  | .refresh g => g ∈ grants s
  | .unsigned => True

/-- The token of a refresh or logout is one that circulates, with the claims it has by then. -/
def Presented (s : Service) (now : ℕ) (r : TokenRequest) : Prop :=
  FindsById r.findUser ∧
    ∃ token, Circulates s token ∧ r.payload = decodeAccessToken settings now token

/-- The commands that store a session. The tokens of the call are minted right before. -/
def Mints : Command → Prop
  | .createSession _ => True
  | .rotateSession .. => True
  | _ => False

/-- What may happen at a time: a call starts, with a token that circulates if it needs one, or one
that is running goes on; one that has minted its tokens has read the clock for them. -/
def Allowed (s : Service) (now : ℕ) : PoolAction TokenCall → Prop
  | .start ⟨.login _, _, _⟩ => True
  | .start ⟨.refresh r, _, _⟩ => Presented settings s now r
  | .start ⟨.logout r, _, _⟩ => Presented settings s now r
  | .issue i => ∀ call c k, s.running[i]? = some (call, .call c k) → Mints c → call.accessAt ≤ now

def act (s : Service) (action : PoolAction TokenCall) : Service :=
  s.act exec (fun c => body settings c.call) action

def run (s : Service) (steps : List (ℕ × PoolAction TokenCall)) : Service :=
  steps.foldl (fun s step => act settings s step.2) s

/-- A run in which the clock does not go back and no signature is forged. -/
def Honest (s : Service) (now : ℕ) : List (ℕ × PoolAction TokenCall) → Prop
  | [] => True
  | step :: rest =>
    now ≤ step.1 ∧ Allowed settings s step.1 step.2 ∧ Honest (act settings s step.2) step.1 rest

variable {settings}

theorem decodeAccessToken_some {now : ℕ} {token : Token} {payload : TokenPayload}
    (h : decodeAccessToken settings now token = some payload) :
    (∃ g, token = .access g ∧ now ≤ g.accessAt + settings.jwtExpiresMin * 60 ∧
      payload = ⟨some "access", some g.user.id, none⟩) ∨
    ∃ g, token = .refresh g ∧ payload = ⟨some "refresh", some g.user.id, some g.jti⟩ := by
  cases token with
  | unsigned => cases h
  | access g =>
    unfold decodeAccessToken at h
    dsimp only at h
    by_cases hvalid : now ≤ g.accessAt + settings.jwtExpiresMin * 60
    · rw [if_pos hvalid] at h
      exact .inl ⟨g, rfl, hvalid, (Option.some.inj h).symm⟩
    · rw [if_neg hvalid] at h
      cases h
  | refresh g =>
    unfold decodeAccessToken at h
    dsimp only at h
    by_cases hvalid : now ≤ g.refreshAt + settings.jwtRefreshExpiresMin * 60
    · rw [if_pos hvalid] at h
      exact .inr ⟨g, rfl, (Option.some.inj h).symm⟩
    · rw [if_neg hvalid] at h
      cases h

theorem truthy_some {a b : String} (h : truthy (some a) = some b) : a = b :=
  Option.some.inj (Option.filter_eq_some_iff.mp h).1

theorem getCurrentUser_ok {findUser : String → Option User} {now : ℕ} {token : Token} {user : User}
    (hfind : FindsById findUser)
    (h : getCurrentUser settings findUser now (some token) = .ok user) :
    ∃ g, token = .access g ∧ now ≤ g.accessAt + settings.jwtExpiresMin * 60 ∧
      user.id = g.user.id := by
  unfold getCurrentUser at h
  dsimp only at h
  split at h
  next => cases h
  next user' hbind =>
    obtain rfl := Except.ok.inj h
    obtain ⟨payload, hdecode, hpass⟩ := Option.bind_eq_some_iff.mp hbind
    rcases decodeAccessToken_some hdecode with ⟨g, htoken, hvalid, rfl⟩ | ⟨g, htoken, rfl⟩
    · obtain ⟨sub, hsub, hfound⟩ := Option.bind_eq_some_iff.mp hpass
      exact ⟨g, htoken, hvalid, by rw [hfind sub _ hfound, truthy_some hsub]⟩
    · cases hpass

end Tokens

section Calls

variable (settings : Settings)

/-- The command and reply after which a call hands out tokens, and whose they are. -/
inductive Granting : Call → (c : Command) → Except RefreshSessionRepository.Exn (Reply c) →
    Issued → Prop
  | login (r : LoginRequest) (user : User) (session : RefreshSession)
      (huser : r.user = some user) (hverified : r.passwordVerified = true) :
      Granting (.login r) (.createSession session) (.ok ()) ⟨user, session.jti⟩
  | refresh (r : TokenRequest) (user : User) (currentJti : String) (replacement : RefreshSession)
      (revokedAt now : ℕ) (hjti : r.jti = some currentJti)
      (huser : r.sub.bind r.findUser = some user) :
      Granting (.refresh r) (.rotateSession currentJti replacement revokedAt now) (.ok true)
        ⟨user, replacement.jti⟩

def EndsGranting (call : TokenCall) (c : Command)
    (reply : Except RefreshSessionRepository.Exn (Reply c)) (o : Outcome) : Prop :=
  ∀ issued, o = .ok (some issued) → Granting call.call c reply issued

def EndsWithout (_ : TokenCall) (o : Outcome) : Prop := ∀ issued, o ≠ .ok (some issued)

theorem login_grants (r : LoginRequest) (accessAt refreshAt : ℕ) :
    Pool.Obeys StoresNew EndsWithout EndsGranting ⟨.login r, accessAt, refreshAt⟩
      (login settings r) := by
  unfold login
  cases huser : r.user.filter fun _ => r.passwordVerified with
  | none =>
    refine ⟨fun o ho issued => ?_, fun h => by cases h⟩
    rw [← Option.some.inj ho]
    exact fun h => by cases h
  | some user =>
    obtain ⟨hfound, hverified⟩ := Option.filter_eq_some_iff.mp huser
    refine ⟨fun o ho => (by cases ho), fun _ => ?_⟩
    refine .perform_bind rfl (fun _ issued h => by cases h) (fun reply o ho issued h => ?_)
      fun _ h => by cases h
    have hissued : (⟨user, r.drawn.jti⟩ : Issued) = issued := by
      rw [h] at ho
      exact Option.some.inj (Except.ok.inj (Option.some.inj ho))
    rw [← hissued]
    exact .login r user (buildRefreshSession settings user.id r.drawn) hfound hverified

theorem rotate_grants {r : TokenRequest} {currentJti : String} {user : User}
    (accessAt refreshAt : ℕ) (hjti : r.jti = some currentJti)
    (huser : r.sub.bind r.findUser = some user) :
    (rotate settings currentJti user r.drawn).EndsAfter StoresNew
      (EndsGranting ⟨.refresh r, accessAt, refreshAt⟩) := by
  refine .perform_bind rfl (fun _ issued h => by cases h) ?_ ?_
  · intro rotated o ho issued h
    rw [h] at ho
    cases rotated with
    | true =>
      have hissued : (⟨user, r.drawn.jti⟩ : Issued) = issued :=
        Option.some.inj (Except.ok.inj (Option.some.inj ho))
      rw [← hissued]
      exact .refresh r user currentJti (buildRefreshSession settings user.id r.drawn) _ _ hjti huser
    | false => exact absurd (Option.some.inj ho) (by intro h; cases h)
  · intro rotated h
    cases rotated with
    | true => cases h
    | false => cases h

theorem refresh_grants (r : TokenRequest) (accessAt refreshAt : ℕ) :
    Pool.Obeys StoresNew EndsWithout EndsGranting ⟨.refresh r, accessAt, refreshAt⟩
      (refresh settings r) := by
  have hrefused : Pool.Obeys StoresNew EndsWithout EndsGranting ⟨.refresh r, accessAt, refreshAt⟩
      (throw invalidRefreshToken : Prog (Option Issued)) := by
    refine ⟨fun o ho issued => ?_, fun h => by cases h⟩
    rw [← Option.some.inj ho]
    exact fun h => by cases h
  unfold refresh
  cases hjti : r.jti with
  | none => exact hrefused
  | some currentJti =>
    cases huser : r.sub.bind r.findUser with
    | none => exact hrefused
    | some user =>
      refine ⟨fun o ho => (by cases ho), fun _ => ?_⟩
      refine .perform_bind trivial (fun _ issued h => by cases h) ?_ ?_
      · intro session o ho issued h
        by_cases hv : sessionValid user session = true
        · rw [if_pos hv] at ho
          cases ho
        · rw [if_neg hv, h] at ho
          exact absurd (Option.some.inj ho) (by intro h; cases h)
      · intro session h
        by_cases hv : sessionValid user session = true
        · rw [if_pos hv]
          exact rotate_grants settings accessAt refreshAt hjti huser
        · rw [if_neg hv] at h
          cases h

theorem logout_grants (r : TokenRequest) (accessAt refreshAt : ℕ) :
    Pool.Obeys StoresNew EndsWithout EndsGranting ⟨.logout r, accessAt, refreshAt⟩ (logout r) := by
  unfold logout
  cases hjti : r.jti with
  | none =>
    refine ⟨fun o ho issued => ?_, fun h => by cases h⟩
    rw [← Option.some.inj ho]
    exact fun h => by cases h
  | some currentJti =>
    refine ⟨fun o ho => (by cases ho), fun _ => ?_⟩
    refine .perform_bind trivial (fun _ issued h => by cases h) (fun reply o ho issued h => ?_)
      fun _ h => by cases h
    rw [h] at ho
    exact absurd (Option.some.inj ho) (by intro h; cases h)

theorem body_grants (call : TokenCall) :
    Pool.Obeys StoresNew EndsWithout EndsGranting call (body settings call.call) := by
  obtain ⟨call, accessAt, refreshAt⟩ := call
  cases call with
  | login r => exact login_grants settings r accessAt refreshAt
  | refresh r => exact refresh_grants settings r accessAt refreshAt
  | logout r => exact logout_grants r accessAt refreshAt

end Calls

section Sessions

variable {t : Sessions} {jti root : String}

theorem exec_get_of_revoked (c : Command) (h : Revoked t jti) : (exec c t).2.get jti = t.get jti := by
  obtain ⟨s, hs, hne⟩ := h
  cases c with
  | createSession session =>
    simp only [exec, RefreshSessionRepository.createSession]
    split
    next t' hins =>
      rw [hs]
      exact Table.get_insert_of_get hins hs
    next => rfl
  | getByJti _ => rfl
  | rotateSession currentJti replacement revokedAt now =>
    rcases rotateSession_cases currentJti replacement revokedAt now t with
      ⟨hsame, _⟩ | ⟨s', t', hs', hnone, hins, heq⟩
    · simp only [exec, hsame]
    · have hother : jti ≠ currentJti := by
        intro h
        rw [h, hs'] at hs
        exact hne (Option.some.inj hs ▸ hnone)
      simp only [exec, heq]
      rw [hs]
      exact Table.get_insert_of_get hins (by simp [hother, hs])
  | revokeSession jti' revokedAt =>
    simp only [exec, RefreshSessionRepository.revokeSession]
    split
    next hopen =>
      have hother : jti ≠ jti' := by
        intro h
        rw [← h, hs] at hopen
        exact hne (by simpa using hopen)
      simp [hother]
    next => rfl

/-- What a command that stores a session has found and leaves. -/
structure Stores (t t' : Sessions) (jti : String) : Prop where
  unused : t.get jti = none
  stored : ∃ s, t'.get jti = some s

theorem createSession_stores {session : RefreshSession}
    (h : (exec (.createSession session) t).1 = .ok ()) :
    Stores t (exec (.createSession session) t).2 session.jti := by
  cases hins : t.insert session.jti session with
  | none =>
    simp only [exec, RefreshSessionRepository.createSession, hins] at h
    cases h
  | some t' =>
    simp only [exec, RefreshSessionRepository.createSession, hins]
    exact ⟨Table.get_eq_none_of_insert hins, session, by rw [Table.get_insert hins, if_pos rfl]⟩

theorem rotateSession_stores {currentJti : String} {replacement : RefreshSession}
    {revokedAt now : ℕ}
    (h : (exec (.rotateSession currentJti replacement revokedAt now) t).1 = .ok true) :
    Stores t (exec (.rotateSession currentJti replacement revokedAt now) t).2 replacement.jti := by
  rcases rotateSession_cases currentJti replacement revokedAt now t with
    ⟨_, hne⟩ | ⟨s, t', hs, hnone, hins, heq⟩
  · exact absurd h hne
  · simp only [exec, heq]
    refine ⟨?_, replacement, by rw [Table.get_insert hins, if_pos rfl]⟩
    have hunused := Table.get_eq_none_of_insert hins
    rw [Table.get_update] at hunused
    by_cases hjti : replacement.jti = currentJti
    · rw [if_pos hjti] at hunused
      exact Option.map_eq_none_iff.mp hunused
    · rwa [if_neg hjti] at hunused

theorem Granting.stores {call : Call} {c : Command} {issued : Issued}
    (h : Granting call c (exec c t).1 issued) : Stores t (exec c t).2 issued.jti := by
  generalize hreply : (exec c t).1 = reply at h
  cases h with
  | login r user session huser hverified => exact createSession_stores hreply
  | refresh r user currentJti replacement revokedAt now hjti huser =>
    exact rotateSession_stores hreply

theorem Granting.mints {call : Call} {c : Command} {issued : Issued}
    {reply : Except RefreshSessionRepository.Exn (Reply c)} (h : Granting call c reply issued) :
    Mints c := by
  cases h with
  | login => exact trivial
  | refresh => exact trivial

/-- No session of the chain can be rotated any more. -/
def Dead (t : Sessions) (root : String) : Prop := ∀ jti, Chain t root jti → Revoked t jti

theorem chain_of_dead (c : Command) (h : Dead t root) (hchain : Chain (exec c t).2 root jti) :
    Chain t root jti := by
  induction hchain with
  | refl => exact .refl
  | tail _ hstep ih =>
    obtain ⟨s, hs, hnext⟩ := hstep
    rw [exec_get_of_revoked c (h _ ih)] at hs
    exact .tail ih ⟨s, hs, hnext⟩

theorem exec_dead (c : Command) (h : Dead t root) : Dead (exec c t).2 root := by
  intro jti hchain
  have hrevoked := h jti (chain_of_dead c h hchain)
  obtain ⟨s, hs, hne⟩ := hrevoked
  exact ⟨s, by rw [exec_get_of_revoked c ⟨s, hs, hne⟩, hs], hne⟩

end Sessions

section Runs

variable {settings : Settings} {s s' : Service} {root : String}

theorem mem_grants {g : Grant} : g ∈ grants s ↔ ∃ call issued,
    (call, .ok (some issued)) ∈ s.answered ∧
      g = ⟨issued.user, issued.jti, call.accessAt, call.refreshAt⟩ := by
  unfold grants
  rw [List.mem_filterMap]
  constructor
  · rintro ⟨⟨call, o⟩, hmem, hg⟩
    unfold grantOf at hg
    split at hg
    next call issued heq =>
      obtain ⟨rfl, rfl⟩ := Prod.mk.inj heq
      exact ⟨call, issued, hmem, (Option.some.inj hg).symm⟩
    next => cases hg
  · rintro ⟨call, issued, hmem, rfl⟩
    exact ⟨_, hmem, rfl⟩

/-- A session that goes back to a login with the password of the user. -/
def Grounded (s : Service) (user : User) (jti : String) : Prop :=
  ∃ call r u root, (call, .ok (some ⟨u, root⟩)) ∈ s.answered ∧ call.call = .login r ∧
    r.user = some u ∧ r.passwordVerified = true ∧ u.id = user.id ∧ Chain s.state root jti

/-- The token of a refresh belongs to a session of its user. -/
def Redeemable (s : Service) (call : TokenCall) : Prop :=
  ∀ r jti user, call.call = .refresh r → r.jti = some jti → r.sub.bind r.findUser = some user →
    ∃ g ∈ grants s, g.jti = jti ∧ g.user.id = user.id

/-- The part of a state that only grows. -/
structure Extends (s s' : Service) : Prop where
  grows : Grows s.state s'.state
  answered : ∀ e ∈ s.answered, e ∈ s'.answered

theorem Extends.grants (h : Extends s s') {g : Grant} (hg : g ∈ grants s) :
    g ∈ SessionAuth.grants s' := by
  obtain ⟨call, issued, hmem, heq⟩ := mem_grants.mp hg
  exact mem_grants.mpr ⟨call, issued, h.answered _ hmem, heq⟩

theorem Extends.chain (h : Extends s s') {jti : String} (hchain : Chain s.state root jti) :
    Chain s'.state root jti :=
  hchain.lift id fun _ _ hstep => h.grows.rotated hstep

theorem Extends.grounded (h : Extends s s') {user : User} {jti : String}
    (hg : Grounded s user jti) : Grounded s' user jti := by
  obtain ⟨call, r, u, root, hmem, hcall, huser, hverified, hid, hchain⟩ := hg
  exact ⟨call, r, u, root, h.answered _ hmem, hcall, huser, hverified, hid, h.chain hchain⟩

theorem Extends.redeemable (h : Extends s s') {call : TokenCall} (hr : Redeemable s call) :
    Redeemable s' call := by
  intro r jti user hcall hjti huser
  obtain ⟨g, hg, hgrant⟩ := hr r jti user hcall hjti huser
  exact ⟨g, h.grants hg, hgrant⟩

/-- What holds of an honest run at a time. -/
structure Sound (s : Service) (now : ℕ) : Prop where
  pending : s.Pending StoresNew EndsGranting
  linked : Linked s.state
  redeemable : ∀ call ∈ s.calls, Redeemable s call
  grounded : ∀ g ∈ grants s, Grounded s g.user g.jti
  timely : ∀ g ∈ grants s, g.accessAt ≤ now

theorem Sound.later {now later : ℕ} (h : Sound s now) (hle : now ≤ later) : Sound s later :=
  { h with timely := fun g hg => (h.timely g hg).trans hle }

theorem start_sound : Sound (Pool.idle Table.empty) 0 where
  pending := Pool.idle_pending _
  linked := by
    rintro jti jti' ⟨row, hrow, _⟩
    simp [Pool.idle] at hrow
  redeemable _ hcall := by simp [Pool.idle, Pool.calls] at hcall
  grounded _ hg := by simp [Pool.idle, grants] at hg
  timely _ hg := by simp [Pool.idle, grants] at hg

/-- What an action can do: it hands out nothing, or one grant for a command that stores its
session. -/
inductive Acts (settings : Settings) (s : Service) (now : ℕ) : Service → Prop
  | quiet (s' : Service) (hstate : s'.state = s.state ∨
      ∃ c, StoresNew c ∧ s'.state = (exec c s.state).2) (hgrants : grants s' = grants s)
      (hanswered : ∀ e ∈ s.answered, e ∈ s'.answered) : Acts settings s now s'
  | grant (s' : Service) (call : TokenCall) (c : Command) (issued : Issued)
      (hc : StoresNew c) (hgranting : Granting call.call c (exec c s.state).1 issued)
      (hcall : Redeemable s call) (htime : call.accessAt ≤ now)
      (hstate : s'.state = (exec c s.state).2)
      (hanswered : s'.answered = (call, .ok (some issued)) :: s.answered) : Acts settings s now s'

theorem redeemable_of_presented {r : TokenRequest} {now accessAt refreshAt : ℕ}
    (h : Presented settings s now r) : Redeemable s ⟨.refresh r, accessAt, refreshAt⟩ := by
  intro r' jti user hcall hjti huser
  obtain rfl : r = r' := Call.refresh.inj hcall
  obtain ⟨hfind, token, hcirculates, hpayload⟩ := h
  obtain ⟨payload, hsome, hpass⟩ := Option.bind_eq_some_iff.mp hjti
  rcases decodeAccessToken_some (hpayload ▸ hsome) with ⟨g, htoken, _, rfl⟩ | ⟨g, htoken, rfl⟩
  · cases hpass
  · rw [htoken] at hcirculates
    obtain ⟨sub, hsub, hfound⟩ := Option.bind_eq_some_iff.mp huser
    rw [TokenRequest.sub, hsome] at hsub
    exact ⟨g, hcirculates, truthy_some hpass, by rw [hfind sub _ hfound, truthy_some hsub]⟩

theorem redeemable_of_allowed {call : TokenCall} {now : ℕ}
    (h : Allowed settings s now (.start call)) : Redeemable s call := by
  obtain ⟨call, accessAt, refreshAt⟩ := call
  cases call with
  | login r => exact fun r' _ _ hcall => absurd hcall (by intro h; cases h)
  | refresh r => exact redeemable_of_presented h
  | logout r => exact fun r' _ _ hcall => absurd hcall (by intro h; cases h)

theorem grants_cons {call : TokenCall} {o : Outcome}
    (h : s'.answered = (call, o) :: s.answered) :
    grants s' = (grantOf (call, o)).toList ++ grants s := by
  unfold grants
  rw [h, List.filterMap_cons]
  cases grantOf (call, o) <;> rfl

theorem act_acts {now : ℕ} {action : PoolAction TokenCall} (hs : Sound s now)
    (h : Allowed settings s now action) :
    (act settings s action).Pending StoresNew EndsGranting ∧
      Acts settings s now (act settings s action) := by
  obtain ⟨hpending, heffect⟩ :=
    Pool.act_effect (m := exec) (body_grants settings) hs.pending action
  refine ⟨hpending, ?_⟩
  change Pool.Effect exec StoresNew EndsWithout EndsGranting s (act settings s action) at heffect
  -- tokens are answered at a call's last command, which is the one that stores the session
  have hanswered : ∀ call issued, (act settings s action).answered =
      (call, .ok (some issued)) :: s.answered → Redeemable s call ∧ call.accessAt ≤ now := by
    intro call issued ha
    rcases Pool.answered_act ha with ⟨_, ho⟩ | ⟨i, c, k, rfl, hi, ho⟩
    · exact absurd rfl ((body_grants settings call).1 _ ho issued)
    · have hmem : (call, Program.call c k) ∈ s.running := List.mem_of_getElem? hi
      have hcall : call ∈ s.calls :=
        List.mem_append_left _ (List.mem_map_of_mem (f := Prod.fst) hmem)
      have hgranting : Granting call.call c (exec c s.state).1 issued := by
        cases hs.pending _ hmem with
        | call _ _ _ hend _ => exact hend _ _ ho issued rfl
      exact ⟨hs.redeemable call hcall, h call c k hi hgranting.mints⟩
  -- any other end grants nothing
  have hquiet : ∀ call o, (act settings s action).answered = (call, o) :: s.answered →
      (∀ issued, o ≠ .ok (some issued)) → grants (act settings s action) = grants s := by
    intro call o ha hno
    rw [grants_cons ha]
    cases o with
    | error e => rfl
    | ok issued =>
      cases issued with
      | none => rfl
      | some issued => exact absurd rfl (hno issued)
  generalize act settings s action = s' at *
  cases heffect with
  | quiet hstate ha =>
    exact .quiet s' (.inl hstate) (by rw [grants, ha]; rfl) fun e he => ha ▸ he
  | ended call o hq hstate ha =>
    exact .quiet s' (.inl hstate) (hquiet call o ha hq)
      fun e he => ha ▸ List.mem_cons_of_mem _ he
  | command c hc hstate ha =>
    exact .quiet s' (.inr ⟨c, hc, hstate⟩) (by rw [grants, ha]; rfl) fun e he => ha ▸ he
  | last call c o hc hq hstate ha =>
    by_cases hno : ∀ issued, o ≠ .ok (some issued)
    · exact .quiet s' (.inr ⟨c, hc, hstate⟩) (hquiet call o ha hno)
        fun e he => ha ▸ List.mem_cons_of_mem _ he
    · obtain ⟨issued, rfl⟩ := not_forall_not.mp hno
      obtain ⟨hcall, htime⟩ := hanswered call issued ha
      exact .grant s' call c issued hc (hq issued rfl) hcall htime hstate ha

theorem Acts.extends {now : ℕ} (hl : Linked s.state) (h : Acts settings s now s') :
    Extends s s' := by
  cases h with
  | quiet hstate hgrants hanswered =>
    refine ⟨?_, hanswered⟩
    rcases hstate with heq | ⟨c, _, heq⟩
    · rw [heq]
      exact .refl _
    · rw [heq]
      exact exec_grows c _ hl
  | grant call c issued hc hgranting hcall htime hstate ha =>
    refine ⟨?_, fun e he => ha ▸ List.mem_cons_of_mem _ he⟩
    rw [hstate]
    exact exec_grows c _ hl

theorem Acts.linked {now : ℕ} (hl : Linked s.state) (h : Acts settings s now s') :
    Linked s'.state := by
  cases h with
  | quiet hstate hgrants hanswered =>
    rcases hstate with heq | ⟨c, hc, heq⟩
    · rw [heq]
      exact hl
    · rw [heq]
      exact exec_linked c _ hc hl
  | grant call c issued hc hgranting hcall htime hstate ha =>
    rw [hstate]
    exact exec_linked c _ hc hl

theorem grounded_grant {call : TokenCall} {c : Command} {issued : Issued}
    (hextends : Extends s s') (hgrounded : ∀ g ∈ grants s, Grounded s g.user g.jti)
    (hgranting : Granting call.call c (exec c s.state).1 issued) (hcall : Redeemable s call)
    (hstate : s'.state = (exec c s.state).2)
    (ha : (call, .ok (some issued)) ∈ s'.answered) : Grounded s' issued.user issued.jti := by
  obtain ⟨call, accessAt, refreshAt⟩ := call
  dsimp only at hgranting
  generalize hreply : (exec c s.state).1 = reply at hgranting
  cases hgranting with
  | login r user session huser hverified =>
    exact ⟨_, r, user, session.jti, ha, rfl, huser, hverified, rfl, .refl⟩
  | refresh r user currentJti replacement revokedAt now hjti huser =>
    obtain ⟨g, hg, hgjti, hguser⟩ := hcall r currentJti user rfl hjti huser
    obtain ⟨call', r', u, root, hmem, hlogin, hu, hverified, hid, hchain⟩ :=
      hextends.grounded (hgrounded g hg)
    have hstep : Rotated s'.state currentJti replacement.jti := by
      rw [hstate]
      exact (rotateSession_ok hreply).2.2
    exact ⟨call', r', u, root, hmem, hlogin, hu, hverified, hid.trans hguser,
      (hgjti ▸ hchain).tail hstep⟩

theorem act_sound {now later : ℕ} {action : PoolAction TokenCall} (hs : Sound s now)
    (hle : now ≤ later) (h : Allowed settings s later action) :
    Sound (act settings s action) later := by
  have hs' := hs.later hle
  obtain ⟨hpending, hacts⟩ := act_acts hs' h
  have hextends := hacts.extends hs.linked
  refine ⟨hpending, hacts.linked hs.linked, fun call hcall => ?_, ?_, ?_⟩
  · rcases Pool.mem_calls_act hcall with hold | hnew
    · exact hextends.redeemable (hs.redeemable call hold)
    · exact hextends.redeemable (redeemable_of_allowed (hnew ▸ h))
  · intro g hg
    generalize act settings s action = s' at *
    cases hacts with
    | quiet hstate hgrants hanswered =>
      rw [hgrants] at hg
      exact hextends.grounded (hs.grounded g hg)
    | grant call c issued hc hgranting hcall htime hstate ha =>
      rw [grants_cons ha] at hg
      rcases List.mem_append.mp hg with hnew | hold
      · obtain rfl := List.mem_singleton.mp hnew
        exact grounded_grant hextends hs.grounded hgranting hcall hstate
          (ha ▸ List.mem_cons_self)
      · exact hextends.grounded (hs.grounded g hold)
  · intro g hg
    generalize act settings s action = s' at *
    cases hacts with
    | quiet hstate hgrants hanswered =>
      rw [hgrants] at hg
      exact hs'.timely g hg
    | grant call c issued hc hgranting hcall htime hstate ha =>
      rw [grants_cons ha] at hg
      rcases List.mem_append.mp hg with hnew | hold
      · obtain rfl := List.mem_singleton.mp hnew
        exact htime
      · exact hs'.timely g hold

/-- Nothing is handed out any more for a chain that is dead. -/
structure Closed (s s' : Service) (root : String) : Prop where
  dead : Dead s'.state root
  grants : ∀ g ∈ grants s', Chain s'.state root g.jti → g ∈ SessionAuth.grants s

theorem Acts.closed {s₀ : Service} {now : ℕ} (hclosed : Closed s₀ s root)
    (h : Acts settings s now s') : Closed s₀ s' root := by
  cases h with
  | quiet hstate hgrants hanswered =>
    rcases hstate with heq | ⟨c, _, heq⟩
    · refine ⟨heq ▸ hclosed.dead, fun g hg hchain => ?_⟩
      rw [hgrants] at hg
      rw [heq] at hchain
      exact hclosed.grants g hg hchain
    · refine ⟨heq ▸ exec_dead c hclosed.dead, fun g hg hchain => ?_⟩
      rw [hgrants] at hg
      rw [heq] at hchain
      exact hclosed.grants g hg (chain_of_dead c hclosed.dead hchain)
  | grant call c issued hc hgranting hcall htime hstate ha =>
    refine ⟨hstate ▸ exec_dead c hclosed.dead, fun g hg hchain => ?_⟩
    rw [hstate] at hchain
    have hold := chain_of_dead c hclosed.dead hchain
    rw [grants_cons ha] at hg
    rcases List.mem_append.mp hg with hnew | hmem
    · -- the session of a new grant was not in the table, but those of the chain are
      obtain rfl := List.mem_singleton.mp hnew
      obtain ⟨row, hrow, _⟩ := hclosed.dead _ hold
      rw [hgranting.stores.unused] at hrow
      cases hrow
    · exact hclosed.grants g hmem hold

theorem run_sound (steps later : List (ℕ × PoolAction TokenCall)) {now : ℕ} (hs : Sound s now)
    (h : Honest settings s now (steps ++ later)) :
    ∃ last, (∀ T, now ≤ T → (∀ step ∈ steps, step.1 ≤ T) → last ≤ T) ∧
      Sound (run settings s steps) last ∧ Honest settings (run settings s steps) last later := by
  induction steps generalizing s now with
  | nil => exact ⟨now, fun T hT _ => hT, hs, h⟩
  | cons step steps ih =>
    obtain ⟨hle, hallowed, hrest⟩ := h
    obtain ⟨last, hlast, hsound, hlater⟩ := ih (act_sound hs hle hallowed) hrest
    refine ⟨last, fun T _ hT => ?_, hsound, hlater⟩
    exact hlast T (hT step List.mem_cons_self) fun step' hstep' =>
      hT step' (List.mem_cons_of_mem _ hstep')

theorem run_closed {s₀ : Service} {now : ℕ} {steps : List (ℕ × PoolAction TokenCall)}
    (hs : Sound s now) (h : Honest settings s now steps) (hclosed : Closed s₀ s root) :
    Closed s₀ (run settings s steps) root := by
  induction steps generalizing s now with
  | nil => exact hclosed
  | cons step steps ih =>
    obtain ⟨hle, hallowed, hrest⟩ := h
    exact ih (act_sound hs hle hallowed) hrest
      ((act_acts (hs.later hle) hallowed).2.closed hclosed)

/-- In every order of the steps of any logins, refreshes and logouts, in which no signature is
forged: a request passes as a user with an access token only, before that expires, and its session
goes back through rotations to a login with the password of that user. Once all sessions of such a
chain are revoked, no later than the life of one access token no request passes by it. -/
theorem authenticated_by_login (settings : Settings) (before later : List (ℕ × PoolAction TokenCall))
    (T : ℕ) (hhonest : Honest settings (Pool.idle Table.empty) 0 (before ++ later))
    (hT : ∀ step ∈ before, step.1 ≤ T) :
    let s := run settings (Pool.idle Table.empty) before
    let s' := run settings s later
    ∀ token, Circulates s' token → ∀ now findUser user, FindsById findUser →
      getCurrentUser settings findUser now (some token) = .ok user →
      ∃ g call r u root, token = .access g ∧ now ≤ g.accessAt + settings.jwtExpiresMin * 60 ∧
        (call, .ok (some ⟨u, root⟩)) ∈ s'.answered ∧ call.call = .login r ∧ r.user = some u ∧
        r.passwordVerified = true ∧ u.id = user.id ∧ Chain s'.state root g.jti ∧
        (Dead s.state root → now ≤ T + settings.jwtExpiresMin * 60) := by
  intro s s' token hcirculates now findUser user hfind hpass
  obtain ⟨last, hlast, hsound, hrest⟩ := run_sound before later start_sound hhonest
  obtain ⟨_, _, hlater, _⟩ := run_sound later [] hsound (by rwa [List.append_nil])
  obtain ⟨g, rfl, hvalid, huser⟩ := getCurrentUser_ok hfind hpass
  obtain ⟨call, r, u, root, hmem, hlogin, hu, hverified, hid, hchain⟩ :=
    hlater.grounded g hcirculates
  refine ⟨g, call, r, u, root, rfl, hvalid, hmem, hlogin, hu, hverified, hid.trans huser.symm,
    hchain, fun hdead => ?_⟩
  have hclosed := run_closed hsound hrest ⟨hdead, fun g hg _ => hg⟩
  have hold := hsound.timely g (hclosed.grants g hcirculates hchain)
  have hend := hlast T (Nat.zero_le T) hT
  omega

end Runs

def sampleUser : User := ⟨"u1", "u@example.com"⟩

def sampleLogin : TokenCall := ⟨.login ⟨some sampleUser, true, ⟨"j1", 10, 0, 0⟩⟩, 10, 10⟩

def sampleGrant : Grant := ⟨sampleUser, "j1", 10, 10⟩

/-- A logout with the refresh token of the login. -/
def sampleLogout : TokenCall :=
  ⟨.logout ⟨some ⟨some "refresh", some "u1", some "j1"⟩, fun _ => none, ⟨"", 0, 40, 0⟩⟩, 0, 0⟩

/-- The user logs in at 10 and out again at 40. -/
def sampleRun : List (ℕ × PoolAction TokenCall) :=
  [(5, .start sampleLogin), (10, .issue 0), (30, .start sampleLogout), (40, .issue 0)]

theorem sampleRun_honest :
    Honest ⟨60, 1440⟩ (Pool.idle Table.empty) 0 (sampleRun ++ []) := by
  refine ⟨by decide, trivial, by decide, ?_, by decide, ?_, by decide, ?_, trivial⟩
  · rintro call c k ⟨⟩ _
    decide
  · refine ⟨fun _ _ h => absurd h (Option.some_ne_none _).symm, .refresh sampleGrant, ?_, by decide⟩
    exact List.mem_cons_self
  · rintro call c k ⟨⟩ _
    decide

def sampleUsers (id : String) : Option User := if id = "u1" then some sampleUser else none

theorem sampleUsers_byId : FindsById sampleUsers := by
  intro id user h
  unfold sampleUsers at h
  by_cases hid : id = "u1"
  · rw [if_pos hid] at h
    rw [← Option.some.inj h, hid]
    rfl
  · rw [if_neg hid] at h
    cases h

theorem sampleGrant_circulates :
    Circulates (run ⟨60, 1440⟩ (Pool.idle Table.empty) sampleRun) (.access sampleGrant) :=
  List.mem_cons_self

theorem authenticated_by_login_sample :
    ∃ call r u root, (call, .ok (some ⟨u, root⟩)) ∈
        (run ⟨60, 1440⟩ (Pool.idle Table.empty) sampleRun).answered ∧
      call.call = .login r ∧ r.user = some u ∧ r.passwordVerified = true ∧ u.id = "u1" := by
  obtain ⟨_, call, r, u, root, _, _, hmem, hcall, huser, hverified, hid, _⟩ :=
    authenticated_by_login ⟨60, 1440⟩ sampleRun [] 40 sampleRun_honest (by decide)
      (.access sampleGrant) sampleGrant_circulates 45
      sampleUsers sampleUser sampleUsers_byId
      (by decide)
  exact ⟨call, r, u, root, hmem, hcall, huser, hverified, hid⟩

end Rheonic.SessionAuth
