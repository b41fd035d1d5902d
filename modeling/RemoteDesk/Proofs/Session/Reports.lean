import RemoteDesk.Proofs.Command.Arguments
import RemoteDesk.Proofs.Desktop.Snapshots
import RemoteDesk.Proofs.Desktop.Steady
import RemoteDesk.Proofs.Session.Answer
import RemoteDesk.Proofs.Text.Base64

/-!
Successful responses tell the truth. Behind each one that is not about a login stands one call,
which the desktop carried out with the arguments in the payload; and the data are about that call
and what the desktop replied to it, pictures, displays and windows included.
-/
namespace RemoteDesk

open Json Desktop

/-! ### What data tell -/

/-- The data of a picture. The picture itself is among them only if it is not too large. -/
structure Pictures (limits : Limits) (r : Capture) (data : Members) : Prop where
  display : data.get? "display_id" = some (.nat r.displayId.toNat)
  format : data.get? "format" = some (.str r.format)
  width : data.get? "width" = some (.nat r.width.toNat)
  height : data.get? "height" = some (.nat r.height.toNat)
  size : data.get? "data_size" = some (.nat r.data.length)
  inline : ∃ inline, data.get? "inline" = some (.bool inline) ∧
    (inline = true ↔ r.data.length ≤ limits.maxInline)
  enclosed : (data.get? "data").isSome = true ↔ r.data.length ≤ limits.maxInline
  bytes : ∀ v, data.get? "data" = some v →
    ∃ text, v = .str text ∧ Base64.decode Base64.standard text.toList = some r.data

/-- Data tell about a call and the reply to it. -/
def Tells (limits : Limits) (data : Members) : (call : Call) → call.Reply → Prop
  | .mouseMove p, _ => data = [("x", .int p.x.toInt), ("y", .int p.y.toInt)]
  | .mouseClick b p, _ =>
    data = [("button", .str b.name), ("x", .int p.x.toInt), ("y", .int p.y.toInt)]
  | .mouseScroll dx dy, _ => data = [("x", .int dx.toInt), ("y", .int dy.toInt)]
  | .keyPress key, _ => data = [("key", .str key)]
  | .keyRelease key, _ => data = [("key", .str key)]
  | .typeText text, _ => data = [("length", .nat text.length)]
  | .captureScreen _, (r : Capture) => Pictures limits r data
  | .displays, (r : List Display) =>
    ∃ v, data = [("displays", v)] ∧ asList Display.ofData v = .ok r
  | .windows, (r : List Window) =>
    ∃ v, data = [("windows", v)] ∧ asList Window.ofData v = .ok r
  | .windowAt _, (r : Option Window) =>
    ∃ v, data = [("window", v)] ∧ asOption Window.ofData v = .ok r ∧ (v = .null ↔ r = none)

/-- A guard that passes on a reply has it from the desktop. -/
theorem Desktop.Guarded.perform_eq_ok {σ : Type} [Backend σ] {c : Call} {g : Guarded σ}
    {reply : c.Reply} (h : (g.perform c).1 = .ok reply) :
    g.poisoned = false ∧ (Backend.perform c g.backend).1 = .done reply := by
  by_cases hp : g.poisoned = true
  · rw [perform_of_poisoned c hp] at h
    contradiction
  · have hopen : g.poisoned = false := Bool.eq_false_iff.mpr hp
    rw [(perform_of_open hopen c).2] at h
    refine ⟨hopen, ?_⟩
    cases hdone : (Backend.perform c g.backend).1 with
    | done reply' =>
      rw [hdone] at h
      rw [Except.ok.inj h]
    | failed e =>
      rw [hdone] at h
      contradiction
    | crashed =>
      rw [hdone] at h
      contradiction

namespace Dispatch

/-- The members of a picture by name. -/
theorem ofList_captureData (limits : Limits) (r : Capture) :
    Members.ofList (captureData limits r) =
      (if r.data.length ≤ limits.maxInline then
        [("data", .str (Base64.encode Base64.standard r.data))] else []) ++
      [("data_size", .nat r.data.length), ("display_id", .nat r.displayId.toNat),
        ("format", .str r.format), ("height", .nat r.height.toNat),
        ("inline", .bool (decide (r.data.length ≤ limits.maxInline))),
        ("width", .nat r.width.toNat)] := by
  by_cases h : r.data.length ≤ limits.maxInline
  · simp (disch := decide) only [captureData, decide_eq_true h, if_pos h, if_true,
      List.cons_append, List.nil_append, Members.ofList_cons, Members.ofList_nil,
      Members.insertNew_nil, Members.insertNew_lt, Members.insertNew_gt]
  · simp (disch := decide) only [captureData, decide_eq_false h, if_neg h, Bool.false_eq_true,
      if_false, List.cons_append, List.nil_append, Members.ofList_cons, Members.ofList_nil,
      Members.insertNew_nil, Members.insertNew_lt, Members.insertNew_gt]

theorem pictures_captureData (limits : Limits) (r : Capture) :
    Pictures limits r (.ofList (captureData limits r)) := by
  rw [ofList_captureData]
  by_cases h : r.data.length ≤ limits.maxInline
  · rw [if_pos h, decide_eq_true h]
    refine ⟨rfl, rfl, rfl, rfl, rfl, ⟨true, rfl, ?_⟩, ?_, ?_⟩
    · exact ⟨fun _ => h, fun _ => rfl⟩
    · exact ⟨fun _ => h, fun _ => rfl⟩
    · intro v hv
      exact ⟨_, (Option.some.inj hv).symm, Base64.decode_encode r.data⟩
  · rw [if_neg h, decide_eq_false h]
    refine ⟨rfl, rfl, rfl, rfl, rfl, ⟨false, rfl, ?_⟩, ?_, ?_⟩
    · exact ⟨fun hf => by contradiction, fun hle => absurd hle h⟩
    · exact ⟨fun hf => by contradiction, fun hle => absurd hle h⟩
    · intro v hv
      contradiction

theorem ofList_members (p : Point) : Members.ofList p.members = p.members := by
  simp (disch := decide) only [Point.members, Members.ofList_cons, Members.ofList_nil,
    Members.insertNew_nil, Members.insertNew_lt]

theorem ofList_button (b : MouseButton) (p : Point) :
    Members.ofList (("button", .str b.name) :: p.members) =
      ("button", .str b.name) :: p.members := by
  simp (disch := decide) only [Point.members, Members.ofList_cons, Members.ofList_nil,
    Members.insertNew_nil, Members.insertNew_lt]

/-- Only where there is no window, null stands for it. -/
theorem null_iff (w? : Option Window) :
    (match w? with
      | some w => w.toJson
      | none => Json.null) = .null ↔ w? = none := by
  cases w? with
  | none => exact ⟨fun _ => rfl, fun _ => rfl⟩
  | some w => exact ⟨fun h => by contradiction, fun h => by contradiction⟩

/-- The data of a call tell about it and its reply. -/
theorem tells_replyData (limits : Limits) (call : Call) (reply : call.Reply) :
    Tells limits (replyData limits call reply) call reply := by
  cases call with
  | mouseMove p => exact ofList_members p
  | mouseClick b p => exact ofList_button b p
  | mouseScroll dx dy => exact ofList_members ⟨dx, dy⟩
  | keyPress key => rfl
  | keyRelease key => rfl
  | typeText text => rfl
  | captureScreen id => exact pictures_captureData limits reply
  | displays => exact ⟨_, rfl, asList_map Display.ofData_toJson reply⟩
  | windows => exact ⟨_, rfl, asList_map Window.ofData_toJson reply⟩
  | windowAt p => exact ⟨_, rfl, Window.asOption_toJson reply, null_iff reply⟩

/-! ### What stands behind a success -/

variable {σ : Type} [Backend σ] {service : Service} {m : Moment} {frame : Members}
  {session : Session} {server : Server σ}

theorem call_of_success {id : String} {c : Call}
    (h : (call service m id c session server).response.isSuccess = true) :
    ∃ reply, (server.desktop.perform c).1 = .ok reply ∧
      (call service m id c session server).response =
        .success (some id) (replyData service.limits c reply) m.stamp := by
  revert h
  unfold call
  rcases server.desktop.perform c with ⟨e | reply, desktop⟩
  · exact fun h => by contradiction
  · exact fun _ => ⟨reply, rfl, rfl⟩

/-- The request in a frame is the one that its command's payload was parsed as. -/
theorem parse_of_request? {c : Command} {request : Request} (hc : Command.ofObject frame = .ok c)
    (hr : request? frame = some request) :
    c.kind? = some request.kind ∧ Request.parse request.kind c.payload = .ok request := by
  have hkind := kind?_of_request? (command?_of_ok hc) hr
  rw [request?_of_ok hc hkind] at hr
  refine ⟨hkind, ?_⟩
  cases hp : Request.parse request.kind c.payload with
  | error e =>
    rw [hp] at hr
    contradiction
  | ok request' =>
    rw [hp] at hr
    rw [Option.some.inj hr]

/-- Success data are true. Whatever the state is, a frame that is no login and that is answered with
success has made one call, of its command's kind and with the arguments that stand in the payload;
the desktop has carried it out; and the data tell about that call and what the desktop replied. -/
theorem told_of_success (service : Service) (m : Moment) (frame : Members) (session : Session)
    (server : Server σ)
    (other : ∀ c, Command.ofObject frame = .ok c → c.kind? ≠ some .authenticate)
    (success : (dispatch service m frame session server).response.isSuccess = true) :
    ∃ (c : Command) (call : Call) (reply : call.Reply) (data : Members),
      Command.ofObject frame = .ok c ∧ c.kind? = some call.kind ∧
      Request.parse call.kind c.payload = .ok (.desktop call) ∧ call.StandsIn c.payload ∧
      calls service m frame session server = [call] ∧
      (Backend.perform call server.desktop.backend).1 = .done reply ∧
      (dispatch service m frame session server).response =
        .success (some c.id) data m.stamp ∧
      Tells service.limits data call reply := by
  cases hearly : Check.early.findSome? (fault service m frame session server) with
  | some r =>
    rw [dispatch_of_stopped hearly] at success
    contradiction
  | none =>
    obtain ⟨c, request, hc, hr, hdispatch⟩ := dispatch_of_passed hearly
    obtain ⟨hkind, hparse⟩ := parse_of_request? hc hr
    rw [hdispatch] at success ⊢
    cases request with
    | authenticate credentials => exact absurd hkind (other c hc)
    | desktop call =>
      obtain ⟨reply, hreply, hresponse⟩ := call_of_success success
      obtain ⟨hopen, hdone⟩ := Guarded.perform_eq_ok hreply
      refine ⟨c, call, reply, _, hc, hkind, hparse, Request.standsIn_of_parse hparse, ?_, hdone,
        hresponse, tells_replyData service.limits call reply⟩
      rw [calls_eq, hearly, hr]
      exact if_neg (by rw [hopen]; decide)

/-- The frame of a listing. -/
def listingFrame : Members :=
  [("id", .str "2"), ("payload", .obj []), ("type", .str "get_displays")]

/-- A listing of the displays after a login. -/
theorem told_of_success_listing :
    let m := listing.visit.moment
    (∀ c, Command.ofObject listingFrame = .ok c → c.kind? ≠ some .authenticate) ∧
    (dispatch hourly m listingFrame listing.session listing.server).response.isSuccess = true ∧
    ∃ (c : Command) (call : Call) (reply : call.Reply) (data : Members),
      Command.ofObject listingFrame = .ok c ∧ c.kind? = some call.kind ∧
      Request.parse call.kind c.payload = .ok (.desktop call) ∧ call.StandsIn c.payload ∧
      calls hourly m listingFrame listing.session listing.server = [call] ∧
      (Backend.perform call listing.server.desktop.backend).1 = .done reply ∧
      (dispatch hourly m listingFrame listing.session listing.server).response =
        .success (some c.id) data m.stamp ∧
      Tells hourly.limits data call reply := by
  intro m
  have hother : ∀ c, Command.ofObject listingFrame = .ok c → c.kind? ≠ some .authenticate := by
    intro c hc
    have hobject : Command.ofObject listingFrame = .ok ⟨"2", "get_displays", [], "", none⟩ := rfl
    rw [← Except.ok.inj (hobject.symm.trans hc)]
    decide
  have hsuccess : (dispatch hourly m listingFrame listing.session
      listing.server).response.isSuccess = true := by
    decide +kernel
  exact ⟨hother, hsuccess,
    told_of_success hourly m listingFrame listing.session listing.server hother hsuccess⟩

end Dispatch

end RemoteDesk
