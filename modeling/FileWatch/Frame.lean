import FileWatch.Json.Encode
import FileWatch.Text.Blank
import FileWatch.Text.Utf8
/-!
Frames. In either direction a message is one JSON document in UTF-8, directly followed by a line
feed. A request is written without white space; a reply may be spread over several lines.
-/

namespace FileWatch.Frame

inductive EncodeError where
  | json (e : Json.EncodeError)
  | utf8 (e : Utf8.EncodeError)
  deriving DecidableEq, Repr

/-- The bytes of a request: its compact JSON text and a line feed. -/
def encode (v : Value) : Except EncodeError Bytes := do
  let t ← (Json.encode .compact v).mapError .json
  let bytes ← (Utf8.encode t).mapError .utf8
  pure (bytes ++ [0x0a])

inductive DecodeError where
  | utf8 (e : Utf8.DecodeError)
  | blank
  | malformed (fault : Json.Fault) (whole rest : Text)
  | noNewline
  | trailingData
  | longInteger (digits : Nat)
  deriving DecidableEq, Repr

/-- The message of a frame: white space of JSON, one document, a line feed and nothing more. -/
def decode (frame : Bytes) : Except DecodeError Value :=
  match Utf8.decode frame with
  | .error e => .error (.utf8 e)
  | .ok t =>
    let body := Json.skipSpace t
    if body.isEmpty then .error .blank
    else
      match Json.document body with
      | .error (.malformed fault rest) => .error (.malformed fault t rest)
      | .error (.longInteger digits) => .error (.longInteger digits)
      | .ok (value, rest) =>
        match rest with
        | c :: more =>
          if c = '\n' then if more.isEmpty then .ok value else .error .trailingData
          else .error .noNewline
        | [] => .error .noNewline

/-- Whether a frame ends inside its document, so that another line has to be read: nothing but
white space follows the place of the fault. An integer with too many digits is an error. -/
def needsMore (frame : Bytes) : Except Nat Bool :=
  match Utf8.decode frame with
  | .error _ => .ok false
  | .ok t =>
    let body := Json.skipSpace t
    if body.isEmpty then .ok false
    else
      match Json.document body with
      | .error (.malformed _ rest) => .ok (Text.isBlank rest)
      | .error (.longInteger digits) => .error digits
      | .ok _ => .ok false

end FileWatch.Frame
