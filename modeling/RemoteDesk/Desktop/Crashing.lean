import RemoteDesk.Desktop.Backend

/-!
A desktop without displays or windows that crashes when the pointer is moved. It serves to try
out what becomes of the calls that follow.
-/
namespace RemoteDesk.Desktop

/-- There is nothing to remember. -/
structure Crashing where
  deriving Inhabited

instance : Backend Crashing where
  perform c s :=
    (match c with
      | .mouseMove _ => .crashed
      | .captureScreen id => .failed (.invalidDisplay id)
      | .mouseClick _ _ | .mouseScroll _ _ => .done ()
      | .keyPress _ | .keyRelease _ | .typeText _ => .done ()
      | .displays => .done []
      | .windows => .done []
      | .windowAt _ => .done none, s)

end RemoteDesk.Desktop
