import RemoteDesk.Proofs.Session.Passage

/-!
The order of the checks, as a client can tell it. The first check that finds a fault decides the
response, with its own code; without a fault there is success. The desktop gets at most one call,
and the accounts are asked only about a login, each after all early checks.
-/
namespace RemoteDesk

/-- The service with other accounts. -/
def Service.withAccounts (service : Service) (accounts : Accounts) : Service :=
  { service with auth := { service.auth with accounts } }

namespace Dispatch

open Json Desktop

variable {σ τ : Type} [Backend σ] [Backend τ] {service service' : Service} {m : Moment}
  {frame : Members} {session : Session} {server : Server σ} {c : Command}

/-- The early checks look at the limits of the service, and at nothing else that sessions share. -/
theorem fault_early (hl : service'.limits = service.limits) (server : Server σ)
    (server' : Server τ) {check : Check} (h : check ∈ Check.early) :
    fault service' m frame session server' check = fault service m frame session server check := by
  cases check with
  | rate => simp only [fault, hl]
  | password => exact absurd h (by decide)
  | desktop => exact absurd h (by decide)
  | _ => rfl

theorem findSome?_congr {α β : Type} {f g : α → Option β} {l : List α} (h : ∀ a ∈ l, f a = g a) :
    l.findSome? f = l.findSome? g := by
  induction l with
  | nil => rfl
  | cons a l ih =>
    rw [List.findSome?_cons, List.findSome?_cons, h a List.mem_cons_self,
      ih fun b hb => h b (List.mem_cons_of_mem _ hb)]

theorem findSome?_early_congr (m : Moment) (frame : Members) (session : Session)
    (hl : service'.limits = service.limits) (server : Server σ) (server' : Server τ) :
    Check.early.findSome? (fault service' m frame session server') =
      Check.early.findSome? (fault service m frame session server) :=
  findSome?_congr fun _ h => fault_early hl server server' h

theorem code_of_ite {condition : Prop} [Decidable condition] {found r : Refusal}
    (h : (if condition then some found else none) = some r) : r.code = found.code := by
  rw [Option.some.inj (Option.ite_none_right_eq_some.mp h).2]

/-- A fault has the code of its check. -/
theorem code_of_fault {check : Check} {r : Refusal}
    (h : fault service m frame session server check = some r) : r.code = check.code := by
  cases check with
  | envelope =>
    simp only [fault] at h
    split at h
    · contradiction
    · rw [← Option.some.inj h]
      rfl
  | fresh =>
    obtain ⟨c, -, h⟩ := Option.bind_eq_some_iff.mp h
    exact code_of_ite h
  | rate => exact code_of_ite h
  | context =>
    obtain ⟨c, -, h⟩ := Option.bind_eq_some_iff.mp h
    exact code_of_ite h
  | token =>
    obtain ⟨c, -, h⟩ := Option.bind_eq_some_iff.mp h
    obtain ⟨context, -, h⟩ := Option.bind_eq_some_iff.mp h
    obtain ⟨token, -, h⟩ := Option.bind_eq_some_iff.mp h
    exact code_of_ite h
  | expiry =>
    obtain ⟨c, -, h⟩ := Option.bind_eq_some_iff.mp h
    obtain ⟨context, -, h⟩ := Option.bind_eq_some_iff.mp h
    exact code_of_ite h
  | kind =>
    obtain ⟨c, -, h⟩ := Option.bind_eq_some_iff.mp h
    exact code_of_ite h
  | permission =>
    obtain ⟨c, -, h⟩ := Option.bind_eq_some_iff.mp h
    obtain ⟨kind, -, h⟩ := Option.bind_eq_some_iff.mp h
    obtain ⟨p, -, h⟩ := Option.bind_eq_some_iff.mp h
    obtain ⟨context, -, h⟩ := Option.bind_eq_some_iff.mp h
    rw [← Option.some.inj (Option.ite_none_left_eq_some.mp h).2]
    rfl
  | payload =>
    obtain ⟨c, -, h⟩ := Option.bind_eq_some_iff.mp h
    obtain ⟨kind, -, h⟩ := Option.bind_eq_some_iff.mp h
    split at h
    · contradiction
    · rw [← Option.some.inj h]
      rfl
  | password =>
    simp only [fault] at h
    split at h
    · rw [← Option.some.inj (Option.ite_none_left_eq_some.mp h).2]
      rfl
    · contradiction
  | desktop =>
    simp only [fault] at h
    split at h
    · split at h
      · contradiction
      · rw [← Option.some.inj h]
        rfl
    · contradiction

/-! ### The last check -/

/-- What the request in a frame comes to: the fault of the last two checks, or success. -/
theorem perform_response {request : Request} (id : String) (s : Session)
    (hr : request? frame = some request) :
    match [Check.password, .desktop].findSome? (fault service m frame session server) with
    | some r => (perform service m id request s server).response =
        refusalResponse (some id) r m.stamp
    | none => (perform service m id request s server).response.isSuccess = true := by
  cases request with
  | authenticate c =>
    cases hwho : service.auth.accounts.identify c.username c.password with
    | some who =>
      have hv := Accounts.verify_eq_true_iff.mpr ⟨who, hwho⟩
      have hf : [Check.password, .desktop].findSome? (fault service m frame session server) =
          none := by
        simp [fault, hr, hv]
      rw [hf]
      simp only [perform, login]
      rw [Auth.Attempt.settle_of_some _ _ hwho]
      rfl
    | none =>
      have hv := Accounts.verify_eq_false_iff.mpr hwho
      have hf : [Check.password, .desktop].findSome? (fault service m frame session server) =
          some (.auth .invalidCredentials) := by
        simp [fault, hr, hv]
      rw [hf]
      simp only [perform, login]
      rw [Auth.Attempt.settle_of_none _ _ hwho]
  | desktop call =>
    simp only [perform, Dispatch.call]
    rcases hp : server.desktop.perform call with ⟨reply | e, desktop⟩
    · have hf : [Check.password, .desktop].findSome? (fault service m frame session server) =
          some (.desktop reply) := by
        simp [fault, hr, hp]
      rw [hf]
      rfl
    · have hf : [Check.password, .desktop].findSome? (fault service m frame session server) =
          none := by
        simp [fault, hr, hp]
      rw [hf]
      rfl

theorem dispatch_response (service : Service) (m : Moment) (frame : Members) (session : Session)
    (server : Server σ) :
    match Check.all.findSome? (fault service m frame session server) with
    | some r => (dispatch service m frame session server).response =
        refusalResponse (Command.peekId frame) r m.stamp
    | none => (dispatch service m frame session server).response.isSuccess = true := by
  have hp := dispatch_passage service m frame session server
  generalize dispatch service m frame session server = turn at hp ⊢
  rw [Check.all, List.findSome?_append]
  cases hp with
  | stopped r fails =>
    rw [fails]
    rfl
  | passed c request passes hc hr =>
    rw [passes, Option.none_or, Command.peekId_of_ofObject hc]
    exact perform_response c.id _ hr

/-! ### Calls and accounts -/

/-- The desktop gets the call of a request, once, if the frame passes the early checks and the
guard is open. -/
theorem calls_eq (service : Service) (m : Moment) (frame : Members) (session : Session)
    (server : Server σ) :
    calls service m frame session server =
      match Check.early.findSome? (fault service m frame session server), request? frame with
      | none, some (.desktop call) => if server.desktop.poisoned then [] else [call]
      | _, _ => [] := by
  have hp := dispatch_passage service m frame session server.trace
  have hearly : Check.early.findSome? (fault service m frame session server.trace) =
      Check.early.findSome? (fault service m frame session server) :=
    findSome?_early_congr m frame session rfl server server.trace
  unfold calls
  generalize dispatch service m frame session server.trace = turn at hp ⊢
  cases hp with
  | stopped r fails =>
    rw [← hearly, fails]
    rfl
  | passed c request passes hc hr =>
    rw [← hearly, passes, hr]
    cases request with
    | authenticate credentials =>
      simp only [perform, login]
      split <;> rfl
    | desktop call =>
      have hcalls := Guarded.calls_perform call server.trace.desktop
      simp only [perform, Dispatch.call]
      rcases hg : server.trace.desktop.perform call with ⟨reply | e, desktop⟩ <;>
      · rw [hg] at hcalls
        exact hcalls

/-- Only a login that passes the early checks asks anything of the accounts. -/
theorem dispatch_accounts (service : Service) (m : Moment) (frame : Members) (session : Session)
    (server : Server σ) (accounts : Accounts)
    (h : Check.early.findSome? (fault service m frame session server) = none →
      ∀ c, request? frame ≠ some (.authenticate c)) :
    dispatch (service.withAccounts accounts) m frame session server =
      dispatch service m frame session server := by
  have hp := dispatch_passage service m frame session server
  have hp' := dispatch_passage (service.withAccounts accounts) m frame session server
  have hearly : Check.early.findSome?
        (fault (service.withAccounts accounts) m frame session server) =
      Check.early.findSome? (fault service m frame session server) :=
    findSome?_early_congr m frame session rfl server server
  generalize dispatch service m frame session server = turn at hp ⊢
  generalize dispatch (service.withAccounts accounts) m frame session server = turn'
    at hp' ⊢
  cases hp with
  | stopped r fails =>
    cases hp' with
    | stopped r' fails' =>
      obtain rfl : r' = r := Option.some.inj (fails'.symm.trans (hearly.trans fails))
      rfl
    | passed c request passes hc hr =>
      rw [hearly, fails] at passes
      contradiction
  | passed c request passes hc hr =>
    cases hp' with
    | stopped r' fails' =>
      rw [hearly, passes] at fails'
      contradiction
    | passed c' request' passes' hc' hr' =>
      obtain rfl : c = c' := Except.ok.inj (hc.symm.trans hc')
      obtain rfl : request = request' := Option.some.inj (hr.symm.trans hr')
      cases request with
      | authenticate credentials => exact absurd hr (h passes credentials)
      | desktop call => rfl

/-- The checks of a frame run in a fixed order: the first that finds a fault decides the response,
with the code of that check, and the response tells of success exactly if none does. The desktop
gets at most one call, that of the request, and only after all early checks. What the accounts
answer only matters to a login that passes them. -/
theorem dispatch_order (service : Service) (m : Moment) (frame : Members) (session : Session)
    (server : Server σ) :
    let turn := dispatch service m frame session server
    let finds := fault service m frame session server
    let made := calls service m frame session server
    (∀ r, Check.all.findSome? finds = some r →
      turn.response = refusalResponse (Command.peekId frame) r m.stamp) ∧
    (turn.response.isSuccess = true ↔ ∀ check ∈ Check.all, finds check = none) ∧
    (∀ check r, finds check = some r → r.code = check.code) ∧
    (made = [] ∨ ∃ call, made = [call] ∧ request? frame = some (.desktop call) ∧
      ∀ check ∈ Check.early, finds check = none) ∧
    (∀ accounts, (∀ c, request? frame = some (.authenticate c) →
        ∃ check ∈ Check.early, finds check ≠ none) →
      dispatch (service.withAccounts accounts) m frame session server = turn) := by
  intro turn finds made
  have hresponse : match Check.all.findSome? finds with
      | some r => turn.response = refusalResponse (Command.peekId frame) r m.stamp
      | none => turn.response.isSuccess = true := dispatch_response service m frame session server
  have hnone : ∀ checks : List Check,
      checks.findSome? finds = none ↔ ∀ check ∈ checks, finds check = none := by
    intro checks
    exact List.findSome?_eq_none_iff
  refine ⟨?_, ?_, fun check r h => code_of_fault h, ?_, ?_⟩
  · intro r hr
    rw [hr] at hresponse
    exact hresponse
  · rw [← hnone]
    cases hall : Check.all.findSome? finds with
    | some r =>
      rw [hall] at hresponse
      have hf : turn.response.isSuccess = false := by
        rw [hresponse]
        rfl
      simp [hf]
    | none =>
      rw [hall] at hresponse
      exact ⟨fun _ => rfl, fun _ => hresponse⟩
  · have hmade : made = _ := calls_eq service m frame session server
    split at hmade
    · rename_i call hearly hr
      by_cases hp : server.desktop.poisoned = true
      · exact .inl (hmade.trans (if_pos hp))
      · exact .inr ⟨call, hmade.trans (if_neg hp), hr, (hnone _).mp hearly⟩
    · exact .inl hmade
  · intro accounts h
    apply dispatch_accounts
    intro hearly c hc
    obtain ⟨check, hmem, hne⟩ := h c hc
    exact hne ((hnone _).mp hearly check hmem)

end Dispatch

end RemoteDesk
