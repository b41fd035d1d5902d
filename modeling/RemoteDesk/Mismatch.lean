import RemoteDesk.Number.Layout
import RemoteDesk.Text.Quoted

/-!
Why a value that is well formed does not have the shape that was wanted. Command envelopes,
payloads, responses and configuration files share these reasons and their wording.
-/
namespace RemoteDesk

/-- A value as a message names it. -/
inductive Seen where
  | null
  | boolean (b : Bool)
  | integer (n : Int)
  | float (x : Float)
  | text (s : String)
  | sequence
  | map
  deriving Repr, Inhabited

inductive Mismatch where
  | wrongType (seen : Seen) (wanted : String)
  | wrongValue (seen : Seen) (wanted : String)
  | missingField (name : String)
  | duplicateField (name : String)
  | unknownVariant (name : String) (variants : List String)
  | wrongLength (length : Nat) (wanted : String)
  | notNameOrTable
  | notOneEntry (some? : Bool)
  | notTable (seen : String)
  | tableNotEmpty
  | listNotEmpty
  deriving Repr, Inhabited

def Seen.message (layout : Number.Layout) : Seen → String
  | .null => "null"
  | .boolean b => "boolean `" ++ (if b then "true" else "false") ++ "`"
  | .integer n => "integer `" ++ toString n ++ "`"
  | .float x => "floating point `" ++ layout.text x.toBits ++ "`"
  | .text s => "string " ++ Text.quoted s
  | .sequence => "sequence"
  | .map => "map"

/-- The choices an unknown name is compared with. -/
def choices (names : List String) : String :=
  match names.map fun n => "`" ++ n ++ "`" with
  | [] => "there are no variants"
  | [a] => "expected " ++ a
  | [a, b] => "expected " ++ a ++ " or " ++ b
  | all => "expected one of " ++ ", ".intercalate all

def Mismatch.message (layout : Number.Layout) : Mismatch → String
  | .wrongType seen wanted => "invalid type: " ++ seen.message layout ++ ", expected " ++ wanted
  | .wrongValue seen wanted => "invalid value: " ++ seen.message layout ++ ", expected " ++ wanted
  | .missingField name => "missing field `" ++ name ++ "`"
  | .duplicateField name => "duplicate field `" ++ name ++ "`"
  | .unknownVariant name variants => "unknown variant `" ++ name ++ "`, " ++ choices variants
  | .wrongLength length wanted => "invalid length " ++ toString length ++ ", expected " ++ wanted
  | .notNameOrTable => "wanted string or table"
  | .notOneEntry false => "wanted exactly 1 element, found 0 elements"
  | .notOneEntry true => "wanted exactly 1 element, more than 1 element"
  | .notTable seen => "expected table, found " ++ seen
  | .tableNotEmpty => "expected empty table"
  | .listNotEmpty => "expected empty array"

end RemoteDesk
