import Rheonic.Lib.Pool
import Rheonic.Lib.PyText
import Rheonic.RefreshSessionRepository

namespace Rheonic.AuthService
open CommandProgram RowTable PyText RefreshSessionRepository

structure User where
  id : String
  email : String
  deriving DecidableEq, Repr

structure Settings where
  jwtExpiresMin : ℕ
  jwtRefreshExpiresMin : ℕ

/-- The claims of a token whose signature and expiry have been verified. -/
structure TokenPayload where
  typ : Option String
  sub : Option String
  jti : Option String
  deriving DecidableEq, Repr

/-- The tokens of an answer: both are the user's, and the refresh token carries `jti`. -/
structure Issued where
  user : User
  jti : String
  deriving DecidableEq, Repr

/-- What a call draws itself: the id of a new session, and its readings of the clock. -/
structure Drawn where
  jti : String
  issuedAt : ℕ
  revokedAt : ℕ
  now : ℕ

/-- A login, with the user that its email finds and whether the password is his. -/
structure LoginRequest where
  user : Option User
  passwordVerified : Bool
  drawn : Drawn

/-- A refresh or logout, with the claims of its token if the token is valid, and the user
table at the time. -/
structure TokenRequest where
  payload : Option TokenPayload
  findUser : String → Option User
  drawn : Drawn

inductive Call
  | login (r : LoginRequest)
  | refresh (r : TokenRequest)
  | logout (r : TokenRequest)

abbrev Prog (α : Type) := Program Command Reply RefreshSessionRepository.Exn α

def createSession (session : RefreshSession) : Prog Unit :=
  Program.perform (Command.createSession session)

def getByJti (jti : String) : Prog (Option RefreshSession) := Program.perform (Command.getByJti jti)

def rotateSession (currentJti : String) (replacement : RefreshSession) (revokedAt now : ℕ) :
    Prog Bool :=
  Program.perform (Command.rotateSession currentJti replacement revokedAt now)

def revokeSession (jti : String) (revokedAt : ℕ) : Prog Bool :=
  Program.perform (Command.revokeSession jti revokedAt)

def TokenRequest.jti (r : TokenRequest) : Option String :=
  r.payload.bind fun payload =>
    if orElse payload.typ "" = "refresh" then truthy payload.jti else none

def TokenRequest.sub (r : TokenRequest) : Option String :=
  r.payload.bind fun payload => truthy payload.sub

def invalidRefreshToken : RefreshSessionRepository.Exn := .http 401 "invalid refresh token"

section Service

variable (settings : Settings)

def buildRefreshSession (userId : String) (drawn : Drawn) : RefreshSession where
  jti := drawn.jti
  userId := userId
  createdAt := drawn.issuedAt
  expiresAt := drawn.issuedAt + settings.jwtRefreshExpiresMin * 60

def login (r : LoginRequest) : Prog (Option Issued) :=
  match r.user.filter fun _ => r.passwordVerified with
  | none => throw (.http 401 "invalid credentials")
  | some user => do
    createSession (buildRefreshSession settings user.id r.drawn)
    pure (some ⟨user, r.drawn.jti⟩)

/-- The session of a token must be there, be the user's and not be revoked. -/
def sessionValid (user : User) (session : Option RefreshSession) : Bool :=
  session.any fun s => s.userId = user.id ∧ s.revokedAt = none

def rotate (currentJti : String) (user : User) (drawn : Drawn) : Prog (Option Issued) := do
  let replacement := buildRefreshSession settings user.id drawn
  let rotated ← rotateSession currentJti replacement drawn.revokedAt drawn.now
  if rotated then pure (some ⟨user, replacement.jti⟩) else throw invalidRefreshToken

/-- Validate a refresh token and rotate its session. -/
def refresh (r : TokenRequest) : Prog (Option Issued) :=
  match r.jti, r.sub.bind r.findUser with
  | some currentJti, some user => do
    let session ← getByJti currentJti
    if sessionValid user session then rotate settings currentJti user r.drawn
    else throw invalidRefreshToken
  | _, _ => throw invalidRefreshToken

def logout (r : TokenRequest) : Prog (Option Issued) :=
  match r.jti with
  | none => pure none
  | some currentJti => do
    let _ ← revokeSession currentJti r.drawn.revokedAt
    pure none

def body : Call → Prog (Option Issued)
  | .login r => login settings r
  | .refresh r => refresh settings r
  | .logout r => logout r

end Service

/-- How a call may end without a command: refused, or a logout without a valid token. -/
def EndsAtOnce : Call → Except RefreshSessionRepository.Exn (Option Issued) → Prop
  | .logout r, .ok _ => r.jti = none
  | _, .ok _ => False
  | _, .error _ => True

/-- The last command of a call and its reply, for each way to end. -/
def EndsWith : Call → (c : Command) → Except RefreshSessionRepository.Exn (Reply c) →
    Except RefreshSessionRepository.Exn (Option Issued) → Prop
  | .refresh r, .rotateSession currentJti replacement _ _, reply, .ok issued =>
    reply = .ok true ∧ r.jti = some currentJti ∧ issued.map Issued.jti = some replacement.jti
  | .refresh _, _, _, .ok _ => False
  | .logout r, .revokeSession jti _, _, _ => r.jti = some jti
  | .logout _, _, _, _ => False
  | _, _, _, _ => True

theorem login_obeys (settings : Settings) (r : LoginRequest) :
    Pool.Obeys StoresNew EndsAtOnce EndsWith (.login r) (login settings r) := by
  unfold login
  split
  · exact ⟨fun o ho => by obtain rfl := Option.some.inj ho; trivial, fun h => by cases h⟩
  · refine ⟨fun o ho => (by cases ho), fun _ => ?_⟩
    exact .perform_bind rfl (fun _ => trivial) (fun _ _ _ => trivial) fun _ h => by cases h

theorem rotate_endsAfter (settings : Settings) {r : TokenRequest} {currentJti : String}
    (hjti : r.jti = some currentJti) (user : User) :
    (rotate settings currentJti user r.drawn).EndsAfter StoresNew (EndsWith (.refresh r)) := by
  refine .perform_bind rfl (fun _ => trivial) ?_ ?_
  · intro rotated o ho
    cases rotated with
    | true =>
      obtain rfl := Option.some.inj ho
      exact ⟨rfl, hjti, rfl⟩
    | false =>
      obtain rfl := Option.some.inj ho
      trivial
  · intro rotated h
    cases rotated <;> cases h

theorem refresh_obeys (settings : Settings) (r : TokenRequest) :
    Pool.Obeys StoresNew EndsAtOnce EndsWith (.refresh r) (refresh settings r) := by
  unfold refresh
  split
  next currentJti user hjti _ =>
    refine ⟨fun o ho => (by cases ho), fun _ => .perform_bind trivial (fun _ => trivial) ?_ ?_⟩
    · intro session o ho
      by_cases hv : sessionValid user session = true
      · rw [if_pos hv] at ho
        cases ho
      · rw [if_neg hv] at ho
        obtain rfl := Option.some.inj ho
        trivial
    · intro session h
      by_cases hv : sessionValid user session = true
      · rw [if_pos hv]
        exact rotate_endsAfter settings hjti user
      · rw [if_neg hv] at h
        cases h
  next => exact ⟨fun o ho => by obtain rfl := Option.some.inj ho; trivial, fun h => by cases h⟩

theorem logout_obeys (r : TokenRequest) :
    Pool.Obeys StoresNew EndsAtOnce EndsWith (.logout r) (logout r) := by
  unfold logout
  split
  next hjti =>
    exact ⟨fun o ho => by obtain rfl := Option.some.inj ho; exact hjti, fun h => by cases h⟩
  next currentJti hjti =>
    refine ⟨fun o ho => (by cases ho), fun _ => ?_⟩
    exact .perform_bind trivial (fun _ => hjti) (fun _ _ _ => hjti) fun _ h => by cases h

theorem body_obeys (settings : Settings) (call : Call) :
    Pool.Obeys StoresNew EndsAtOnce EndsWith call (body settings call) := by
  cases call with
  | login r => exact login_obeys settings r
  | refresh r => exact refresh_obeys settings r
  | logout r => exact logout_obeys r

/-- Calls of the service side by side over one session table. -/
abbrev Service := Pool Call Command Reply RefreshSessionRepository.Exn (Option Issued) Sessions

/-- An answered call that has redeemed the token `jti`. -/
def redeems (jti : String) : Call × Except RefreshSessionRepository.Exn (Option Issued) → Bool
  | (.refresh r, .ok _) => r.jti = some jti
  | _ => false

/-- How often the token `jti` has been redeemed. -/
def redemptions (s : Service) (jti : String) : ℕ := s.answered.countP (redeems jti)

/-- An answered call that has logged out the token `jti`. -/
def logsOut (jti : String) : Call × Except RefreshSessionRepository.Exn (Option Issued) → Bool
  | (.logout r, .ok _) => r.jti = some jti
  | _ => false

def logouts (s : Service) (jti : String) : ℕ := s.answered.countP (logsOut jti)

/-- The service after any order of arrivals and steps, from an empty table. -/
def runService (settings : Settings) (actions : List (PoolAction Call)) : Service :=
  (Pool.idle Table.empty).after exec (body settings) actions

/-- A redeemed token has been redeemed once and is revoked, and a redemption extends its chain. -/
structure Safe (s : Service) : Prop where
  linked : Linked s.state
  redeemed : ∀ jti, redemptions s jti = 0 ∨ redemptions s jti = 1 ∧ Revoked s.state jti
  chained : ∀ r user jti jti', (Call.refresh r, .ok (some ⟨user, jti'⟩)) ∈ s.answered →
    r.jti = some jti → Rotated s.state jti jti'

theorem redeems_last {call : Call} {c : Command}
    {o : Except RefreshSessionRepository.Exn (Option Issued)} {t : Sessions}
    {jti : String} (h : EndsWith call c (exec c t).1 o) (hr : redeems jti (call, o) = true) :
    Unrevoked t jti ∧ Revoked (exec c t).2 jti := by
  rcases call with r | r | r <;> rcases o with e | issued <;> simp only [redeems,
    decide_eq_true_eq, Bool.false_eq_true] at hr
  cases c with
  | rotateSession currentJti replacement revokedAt now =>
    obtain ⟨hok, hjti, _⟩ := h
    obtain rfl : currentJti = jti := Option.some.inj (hjti.symm.trans hr)
    exact ⟨(rotateSession_ok hok).1, (rotateSession_ok hok).2.1⟩
  | createSession => exact h.elim
  | getByJti => exact h.elim
  | revokeSession => exact h.elim

theorem chained_last {r : TokenRequest} {c : Command} {user : User} {t : Sessions}
    {jti jti' : String} (h : EndsWith (.refresh r) c (exec c t).1 (.ok (some ⟨user, jti'⟩)))
    (hr : r.jti = some jti) : Rotated (exec c t).2 jti jti' := by
  cases c with
  | rotateSession currentJti replacement revokedAt now =>
    obtain ⟨hok, hjti, hissued⟩ := h
    obtain rfl : currentJti = jti := Option.some.inj (hjti.symm.trans hr)
    obtain rfl : jti' = replacement.jti := Option.some.inj hissued
    exact (rotateSession_ok hok).2.2
  | createSession => exact h.elim
  | getByJti => exact h.elim
  | revokeSession => exact h.elim

theorem logsOut_last {call : Call} {c : Command}
    {o : Except RefreshSessionRepository.Exn (Option Issued)} {t : Sessions}
    {jti : String} (h : EndsWith call c (exec c t).1 o) (hl : logsOut jti (call, o) = true)
    (hrow : ∃ s, t.get jti = some s) : Revoked (exec c t).2 jti := by
  rcases call with r | r | r <;> rcases o with e | issued <;> simp only [logsOut,
    decide_eq_true_eq, Bool.false_eq_true] at hl
  cases c with
  | revokeSession jti' revokedAt =>
    obtain rfl : jti' = jti := Option.some.inj (h.symm.trans hl)
    exact revokeSession_revoked revokedAt hrow
  | createSession => exact h.elim
  | getByJti => exact h.elim
  | rotateSession => exact h.elim

theorem endsAtOnce_neither {call : Call} {o : Except RefreshSessionRepository.Exn (Option Issued)}
    (h : EndsAtOnce call o) (jti : String) :
    redeems jti (call, o) = false ∧ logsOut jti (call, o) = false := by
  rcases call with r | r | r <;> rcases o with e | issued <;> simp_all [EndsAtOnce, redeems, logsOut]

/-- What an action does to the table, to the redemptions and to the logouts. -/
theorem effect_spec {s s' : Service} (hl : Linked s.state)
    (h : Pool.Effect exec StoresNew EndsAtOnce EndsWith s s') :
    Linked s'.state ∧ Grows s.state s'.state ∧
      ∀ jti, (redemptions s' jti = redemptions s jti ∨
          redemptions s' jti = redemptions s jti + 1 ∧ Unrevoked s.state jti ∧
            Revoked s'.state jti) ∧
        ((∃ row, s.state.get jti = some row) → logouts s jti < logouts s' jti →
          Revoked s'.state jti) := by
  cases h with
  | quiet hs ha =>
    simp only [redemptions, logouts, hs, ha]
    exact ⟨hl, .refl _, fun jti => ⟨.inl trivial, fun _ hlt => absurd hlt (lt_irrefl _)⟩⟩
  | ended call o hq hs ha =>
    simp only [redemptions, logouts, hs, ha, List.countP_cons]
    refine ⟨hl, .refl _, fun jti => ?_⟩
    obtain ⟨hr, hlo⟩ := endsAtOnce_neither hq jti
    simp [hr, hlo]
  | command c hc hs ha =>
    simp only [redemptions, logouts, hs, ha]
    exact ⟨exec_linked c _ hc hl, exec_grows c _ hl,
      fun jti => ⟨.inl trivial, fun _ hlt => absurd hlt (lt_irrefl _)⟩⟩
  | last call c o hc hq hs ha =>
    simp only [redemptions, logouts, hs, ha, List.countP_cons]
    refine ⟨exec_linked c _ hc hl, exec_grows c _ hl, fun jti => ⟨?_, fun hrow hlt => ?_⟩⟩
    · by_cases hr : redeems jti (call, o) = true
      · exact .inr ⟨by simp [hr], redeems_last hq hr⟩
      · exact .inl (by simp [hr])
    · by_cases hlo : logsOut jti (call, o) = true
      · exact logsOut_last hq hlo hrow
      · simp [hlo] at hlt

theorem safe_effect {s s' : Service} (hs : Safe s)
    (h : Pool.Effect exec StoresNew EndsAtOnce EndsWith s s') : Safe s' := by
  obtain ⟨hlinked, hgrows, hspec⟩ := effect_spec hs.linked h
  refine ⟨hlinked, fun jti => ?_, fun r user jti jti' hmem hr => ?_⟩
  · rcases (hspec jti).1 with heq | ⟨heq, hopen, hrevoked⟩
    · rw [heq]
      exact (hs.redeemed jti).imp_right fun ⟨h₁, h₂⟩ => ⟨h₁, hgrows.revoked h₂⟩
    · rcases hs.redeemed jti with h₀ | ⟨_, h₁⟩
      · exact .inr ⟨by omega, hrevoked⟩
      · exact absurd hopen h₁.not_unrevoked
  · cases h with
    | quiet hst ha => exact hgrows.rotated (hs.chained r user jti jti' (ha ▸ hmem) hr)
    | command c hc hst ha => exact hgrows.rotated (hs.chained r user jti jti' (ha ▸ hmem) hr)
    | ended call o hq hst ha =>
      rw [ha] at hmem
      rcases List.mem_cons.mp hmem with heq | hmem
      · obtain ⟨rfl, rfl⟩ := Prod.mk.inj heq
        exact hq.elim
      · exact hgrows.rotated (hs.chained r user jti jti' hmem hr)
    | last call c o hc hq hst ha =>
      rw [ha] at hmem
      rcases List.mem_cons.mp hmem with heq | hmem
      · obtain ⟨rfl, rfl⟩ := Prod.mk.inj heq
        exact hst ▸ chained_last hq hr
      · exact hgrows.rotated (hs.chained r user jti jti' hmem hr)

theorem safe_empty : Safe (Pool.idle Table.empty) where
  linked := by
    rintro jti jti' ⟨s, hs, _⟩
    simp [Pool.idle] at hs
  redeemed := fun jti => .inl rfl
  chained := by simp [Pool.idle]

theorem runService_safe (settings : Settings) (actions : List (PoolAction Call)) :
    (runService settings actions).Pending StoresNew EndsWith ∧
      Safe (runService settings actions) :=
  Pool.after_induct (body_obeys settings) (fun _ _ => safe_effect) (Pool.idle_pending _)
    safe_empty actions

/-- What holds between a state of the service and any later one. -/
structure Since (s s' : Service) : Prop where
  safe : Safe s'
  grows : Grows s.state s'.state
  spent : ∀ jti, Revoked s.state jti → redemptions s' jti = redemptions s jti
  loggedOut : ∀ jti, (∃ row, s.state.get jti = some row) → logouts s jti < logouts s' jti →
    Revoked s'.state jti

theorem since_effect {s s' s'' : Service} (hs : Since s s')
    (h : Pool.Effect exec StoresNew EndsAtOnce EndsWith s' s'') : Since s s'' := by
  obtain ⟨hlinked, hgrows, hspec⟩ := effect_spec hs.safe.linked h
  refine ⟨safe_effect hs.safe h, hs.grows.trans hgrows, fun jti hr => ?_, fun jti hrow hlt => ?_⟩
  · rcases (hspec jti).1 with heq | ⟨_, hopen, _⟩
    · rw [heq, hs.spent jti hr]
    · exact absurd hopen (hs.grows.revoked hr).not_unrevoked
  · by_cases hlt' : logouts s jti < logouts s' jti
    · exact hgrows.revoked (hs.loggedOut jti hrow hlt')
    · obtain ⟨row, hget⟩ := hrow
      obtain ⟨row', hget', _⟩ := hs.grows jti row hget
      exact (hspec jti).2 ⟨row', hget'⟩ (by omega)

/-- In every order of the steps of any logins, refreshes and logouts: a refresh token is
redeemed at most once; a refresh hands out the session that has replaced the token's; at most
one session of a rotation chain is unrevoked; and a token that has been rotated away or logged
out is never redeemed again. -/
theorem refresh_single_use (settings : Settings) (actions later : List (PoolAction Call)) :
    let s := runService settings actions
    let s' := s.after exec (body settings) later
    (∀ jti, redemptions s jti ≤ 1) ∧
    (∀ r user jti jti', (Call.refresh r, .ok (some ⟨user, jti'⟩)) ∈ s.answered →
      r.jti = some jti → Rotated s.state jti jti' ∧ Revoked s.state jti) ∧
    (∀ root jti₁ jti₂, Chain s.state root jti₁ → Chain s.state root jti₂ →
      Unrevoked s.state jti₁ → Unrevoked s.state jti₂ → jti₁ = jti₂) ∧
    (∀ jti, Revoked s.state jti →
      Revoked s'.state jti ∧ redemptions s' jti = redemptions s jti) ∧
    (∀ jti, (∃ row, s.state.get jti = some row) → logouts s jti < logouts s' jti →
      Revoked s'.state jti) := by
  intro s s'
  obtain ⟨hpending, hsafe⟩ := runService_safe settings actions
  have hsince : Since s s' :=
    (Pool.after_induct (body_obeys settings) (fun _ _ => since_effect) hpending
      ⟨hsafe, .refl _, fun _ _ => rfl, fun _ _ hlt => absurd hlt (lt_irrefl _)⟩ later).2
  refine ⟨fun jti => ?_, fun r user jti jti' hmem hr => ?_, fun root jti₁ jti₂ => ?_,
    fun jti hr => ⟨hsince.grows.revoked hr, hsince.spent jti hr⟩, hsince.loggedOut⟩
  · rcases hsafe.redeemed jti with h | ⟨h, _⟩ <;> simp [s, h]
  · have hrotated := hsafe.chained r user jti jti' hmem hr
    exact ⟨hrotated, hsafe.linked jti jti' hrotated⟩
  · exact hsafe.linked.chain_unrevoked_unique

/-- Two refreshes of one token, both past their check when the first of them rotates. -/
example :
    let user : User := ⟨"u", "u@example.com"⟩
    let token : TokenRequest := {
      payload := some ⟨some "refresh", some "u", some "a"⟩
      findUser := fun _ => some user
      drawn := ⟨"b", 5, 5, 5⟩ }
    let s := runService ⟨60, 60⟩ [.start (.login ⟨some user, true, ⟨"a", 0, 0, 0⟩⟩), .issue 0,
      .start (.refresh token), .start (.refresh { token with drawn := ⟨"c", 6, 6, 6⟩ }),
      .issue 0, .issue 1, .issue 0, .issue 0]
    redemptions s "a" = 1 ∧ s.answered.length = 3 ∧ s.running.length = 0 := by
  decide

end Rheonic.AuthService
