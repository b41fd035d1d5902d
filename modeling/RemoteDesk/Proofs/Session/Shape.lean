import RemoteDesk.Proofs.Session.Answer

/-!
The shape of responses. Whichever check a frame fails, and also if it fails none, its response
carries the identifier that the frame shows, tells either data or an error, and names the error by
one of a few codes, which its text begins with.
-/
namespace RemoteDesk

open Json Desktop

/-- The codes of errors that leave the session open. -/
def Refusal.codes : List String :=
  ["ProtocolError", "Unauthorized", "Unauthenticated", "Forbidden", "UnknownCommand", "AuthError",
    "FacadeError", "RateLimited"]

/-- The codes of errors that end the connection. -/
def Refusal.closingCodes : List String := ["FramingError", "TooManyConnections"]

theorem Refusal.code_mem_codes (r : Refusal) : r.code ∈ codes := by
  cases r with
  | auth e => cases e <;> decide
  | _ => simp [code, codes]

theorem Refusal.not_mem_closingCodes {code : String} (h : code ∈ codes) : code ∉ closingCodes := by
  have hapart : ∀ code ∈ codes, code ∉ closingCodes := by decide
  exact hapart code h

/-- What every response looks like, given the refusal that it is about, if there is one. -/
structure Response.Shaped (found? : Option Refusal) (response : Response) : Prop where
  /-- Data and an error are never told together, and one of them always is. -/
  either : response.data?.isSome = !response.error?.isSome
  data : response.data?.isSome = true ↔ response.status = .success
  errorCode : response.errorCode?.isSome = response.error?.isSome
  code : ∀ code, response.errorCode? = some code →
    code ∈ Refusal.codes ∧ code ∉ Refusal.closingCodes
  text : ∀ code, response.errorCode? = some code →
    ∃ r, found? = some r ∧ r.code = code ∧ response.error? = some (code ++ ": " ++ r.message)

theorem Response.shaped_success (id? : Option String) (data : Members) (stamp : String) :
    (success id? data stamp).Shaped none where
  either := rfl
  data := ⟨fun _ => rfl, fun _ => rfl⟩
  errorCode := rfl
  code _ h := by contradiction
  text _ h := by contradiction

theorem Command.peekId_eq_some_iff {ms : Members} {id : String} :
    peekId ms = some id ↔ ms.get? "id" = some (.str id) := by
  unfold peekId
  split
  · rename_i id' hid
    rw [hid, Option.some.injEq, Option.some.injEq, Json.str.injEq]
  · rename_i hother
    exact ⟨fun h => by contradiction, fun h => absurd h (hother id)⟩

namespace Dispatch

theorem shaped_refusalResponse (id? : Option String) (r : Refusal) (stamp : String) :
    (refusalResponse id? r stamp).Shaped (some r) where
  either := rfl
  data := ⟨fun h => by contradiction, fun h => by contradiction⟩
  errorCode := rfl
  code code h := by
    obtain rfl : r.code = code := Option.some.inj h
    exact ⟨r.code_mem_codes, Refusal.not_mem_closingCodes r.code_mem_codes⟩
  text code h := by
    obtain rfl : r.code = code := Option.some.inj h
    exact ⟨r, rfl, rfl, rfl⟩

variable {σ : Type} [Backend σ]

/-- Every response is about the identifier that the frame shows, be the frame a command or not. -/
theorem commandId?_dispatch (service : Service) (m : Moment) (frame : Members) (session : Session)
    (server : Server σ) :
    (dispatch service m frame session server).response.commandId? = Command.peekId frame := by
  have hp := dispatch_passage service m frame session server
  generalize dispatch service m frame session server = turn at hp ⊢
  cases hp with
  | stopped r fails => rfl
  | passed c request passes hc hr =>
    rw [Command.peekId_of_ofObject hc]
    rcases perform_form service m c.id request (received service.limits m frame session) server with
      ⟨data, hform⟩ | ⟨r, hform⟩
    · rw [hform]
      rfl
    · rw [hform]
      rfl

theorem shaped_dispatch (service : Service) (m : Moment) (frame : Members) (session : Session)
    (server : Server σ) :
    (dispatch service m frame session server).response.Shaped
      (Check.all.findSome? (fault service m frame session server)) := by
  have hresponse := dispatch_response service m frame session server
  cases hall : Check.all.findSome? (fault service m frame session server) with
  | some r =>
    rw [hall] at hresponse
    rw [hresponse]
    exact shaped_refusalResponse _ r _
  | none =>
    rw [hall] at hresponse
    obtain ⟨id, data, hform⟩ := success_of_isSuccess hresponse
    rw [hform]
    exact Response.shaped_success _ data _

/-- Every response has the documented shape. Whatever the state is, the response to an object shows
exactly the identifier that stands in the object as a text, and is shaped by the first check that
finds a fault; the response to a payload that holds no object shows none, and is shaped by what is
wrong with the payload. -/
theorem responses_shaped (service : Service) (m : Moment) (frame : Members) (session : Session)
    (server : Server σ) (e : ProtocolError) :
    let response := (dispatch service m frame session server).response
    let rejection := (rejectFrame m e session server).response
    (∀ id, response.commandId? = some id ↔ frame.get? "id" = some (.str id)) ∧
    response.Shaped (Check.all.findSome? (fault service m frame session server)) ∧
    rejection.commandId? = none ∧
    rejection.Shaped (some (.protocol e)) := by
  refine ⟨fun id => ?_, shaped_dispatch service m frame session server, rfl, ?_⟩
  · rw [commandId?_dispatch, Command.peekId_eq_some_iff]
  · exact shaped_refusalResponse none (.protocol e) m.stamp

end Dispatch

end RemoteDesk
