import RemoteDesk.Proofs.Session.Mediation

/-!
What a frame comes to. The session afterwards is the one that has received the frame, with another
login at most; the code in the response is that of the first check that finds a fault.
-/
namespace RemoteDesk.Dispatch

open Json Desktop

variable {σ : Type} [Backend σ] {service : Service} {m : Moment} {frame : Members}
  {session : Session} {server : Server σ}

/-- A request is answered with success or refused. -/
theorem perform_form (service : Service) (m : Moment) (id : String) (request : Request)
    (session : Session) (server : Server σ) :
    (∃ data, (perform service m id request session server).response =
      .success (some id) data m.stamp) ∨
    (∃ r, (perform service m id request session server).response =
      refusalResponse (some id) r m.stamp) := by
  cases request with
  | desktop c =>
    simp only [perform, call]
    rcases server.desktop.perform c with ⟨e | reply, desktop⟩
    · exact .inr ⟨_, rfl⟩
    · exact .inl ⟨_, rfl⟩
  | authenticate credentials =>
    simp only [perform, login]
    split
    · exact .inl ⟨_, rfl⟩
    · exact .inr ⟨_, rfl⟩

/-- A response that tells of success has data and nothing else. -/
theorem success_of_isSuccess
    (h : (dispatch service m frame session server).response.isSuccess = true) :
    ∃ id data, (dispatch service m frame session server).response =
      .success (some id) data m.stamp := by
  have hp := dispatch_passage service m frame session server
  generalize dispatch service m frame session server = turn at hp h ⊢
  cases hp with
  | stopped r fails => contradiction
  | passed c request passes hc hr =>
    rcases perform_form service m c.id request (received service.limits m frame session) server with
      ⟨data, hform⟩ | ⟨r, hform⟩
    · exact ⟨c.id, data, hform⟩
    · rw [hform] at h
      contradiction

/-- The error in the response to a refused frame. -/
def refusalText (r : Refusal) : String := r.code ++ ": " ++ r.message

/-- The code in a response and its text are those of the first check that finds a fault. -/
theorem error_eq (service : Service) (m : Moment) (frame : Members) (session : Session)
    (server : Server σ) :
    let response := (dispatch service m frame session server).response
    let found := Check.all.findSome? (fault service m frame session server)
    response.errorCode? = found.map (·.code) ∧ response.error? = found.map refusalText := by
  dsimp only
  have hresponse := dispatch_response service m frame session server
  cases hall : Check.all.findSome? (fault service m frame session server) with
  | some r =>
    rw [hall] at hresponse
    rw [hresponse]
    exact ⟨rfl, rfl⟩
  | none =>
    rw [hall] at hresponse
    obtain ⟨id, data, hform⟩ := success_of_isSuccess hresponse
    rw [hform]
    exact ⟨rfl, rfl⟩

theorem errorCode?_eq (service : Service) (m : Moment) (frame : Members) (session : Session)
    (server : Server σ) :
    (dispatch service m frame session server).response.errorCode? =
      (Check.all.findSome? (fault service m frame session server)).map (·.code) :=
  (error_eq service m frame session server).1

end RemoteDesk.Dispatch
