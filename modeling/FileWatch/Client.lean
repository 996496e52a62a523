import FileWatch.Failure
/-!
The client: it finds the daemon's socket, connects to it, and sends one request at a time for one
reply each. Its state is the connection with the record of what it has called and logged, and each
of its actions either returns or fails in the state it has reached.
-/

namespace FileWatch

/-- A client on a host. At most one connection is opened, and once closed it stays closed. -/
structure Client where
  host : Host := {}
  path : Text := []
  isOpen : Bool := false
  stream : Stream := {}
  calls : List SystemCall := []
  log : List LogRecord := []
  deriving Repr

abbrev Action := EStateM Failure Client

/-- Where to connect: the socket's path, or null to ask for it, with the time limit and the
command that is asked. -/
structure Target where
  sockname : Value := .null
  timeout : Value := .null
  binary : Value := .text "watchman"
  deriving Repr

/-- The value of the `sockname` member of the discovery command's output, which is one document
with nothing but white space around it. -/
def socknameOf (output : Text) : Except Failure Text :=
  let bad (fault : Json.Fault) (rest : Text) : Except Failure Text :=
    .error (.discovery (.malformed fault output rest))
  if output.head? = some 0xFEFF then bad .byteOrderMark output
  else
    match Json.document (Json.skipSpace output) with
    | .error (.malformed fault rest) => bad fault rest
    | .error (.longInteger digits) => .error (.longInteger digits)
    | .ok (value, rest) =>
      let rest := Json.skipSpace rest
      if !rest.isEmpty then bad .extraData rest
      else
        match value with
        | .dict entries =>
          match Value.lookup? "sockname" entries with
          | some (.text t) => .ok t
          | some _ => .error (.discovery .socknameNotText)
          | none => .error (.discovery .noSockname)
        | _ => .error (.discovery .notObject)

namespace Client

def lift {ε α : Type} (failure : ε → Failure) : Except ε α → Action α
  | .ok a => pure a
  | .error e => throw (failure e)

def call (c : SystemCall) : Action Unit := modify fun s => { s with calls := s.calls ++ [c] }

def record (level : Level) (message : Text) : Action Unit :=
  modify fun s => { s with log := s.log ++ [⟨level, message⟩] }

def display (v : Value) : Action Text := lift .tooLong v.display

def onStream {ε α : Type} (f : Stream → Except ε α × Stream) : Action (Except ε α) :=
  modifyGet fun s => let (result, stream) := f s.stream; (result, { s with stream })

def discover (binary timeout : Value) : Action Text := do
  let command := [binary, .text "get-sockname"]
  call (.run command timeout)
  match (← get).host.discovery with
  | .failed e => throw (.discovery (.notRun e))
  | .expired limit =>
    let command ← lift .tooLong (Value.list command).literal
    throw (.discovery (.expired command (← display limit)))
  | .broken e => throw (.call e)
  | .finished status output errors =>
    if status != 0 then
      let detail := Text.strip (errors.getD [])
      throw (.discovery (.failed
        (if detail.isEmpty then ("exit status " : Text) ++ Text.ofInt status else detail)))
    let sockname ← lift id (socknameOf output)
    record .debug (("watchman get-sockname -> " : Text) ++ sockname)
    pure sockname

def wrap (path : Text) : Action Unit := do
  call .wrapSocket
  if (← get).host.wrapError.isSome then
    call .closeSocket
    throw (.wrap path)
  modify fun s => { s with path, isOpen := true }

def limitSocket (limit : Value) : Action Unit := do
  call (.setTimeout limit)
  if let some e := (← get).host.limitFault then throw (.call e)

/-- Connects to the socket at a path. Only an error of the system closes the socket again. -/
def connectPath (path timeout : Value) : Action Unit := do
  call .createSocket
  if let some e := (← get).host.socketError then throw (.socket e)
  match timeout with
  | .null => pure ()
  | limit => limitSocket limit
  let path ← display path
  call (.connect path)
  if let some e := (← get).host.pathFault then throw (.call e)
  if let some e := (← get).host.connectError then
    call .closeSocket
    throw (.connect e path)
  wrap path
  record .info (("Connected to watchman at " : Text) ++ path)

def connect (target : Target) : Action Unit := do
  let sockname ← match target.sockname with
    | .null => Value.text <$> discover target.binary target.timeout
    | path => pure path
  connectPath sockname target.timeout

def requireOpen : Action Unit := do
  unless (← get).isOpen do throw .closed

def send (message : Value) : Action Unit := do
  requireOpen
  let frame ← lift (fun e => match e with
    | Frame.EncodeError.json e => .serialize e
    | Frame.EncodeError.utf8 e => .encoding e) (Frame.encode message)
  lift .send (← onStream (Stream.write frame))
  lift .send (← onStream Stream.flush)
  record .debug (("sent " : Text) ++ quotedBytes frame.dropLast)

/-- Reads one message, which ends at the line feed after its document. -/
def read : Action Value := do
  requireOpen
  let frame ← lift (fun e => match e with
    | Stream.ReadError.os e => .read e
    | Stream.ReadError.longInteger digits => .longInteger digits) (← onStream Stream.readFrame)
  record .debug (("received " : Text) ++ quotedBytes frame)
  lift .frame (Frame.decode frame)

def close : Action Unit := do
  if (← get).isOpen then
    modify fun s => { s with isOpen := false }
    match ← onStream Stream.close with
    | .ok () => pure ()
    | .error e =>
      record .warning (("Dropped unsent data closing " : Text) ++ (← get).path ++ ": " ++ e.message)
    call .closeSocket
    record .info (("Closed watchman connection " : Text) ++ (← get).path)

/-- A decoded reply. A reply of the wrong shape is logged with the message of its error. -/
def accept {α : Type} : Except Reply.Error α → Action α
  | .ok a => pure a
  | .error (.shape expected message) => do
    record .warning message
    throw (.reply (.shape expected message))
  | .error e => throw (.reply e)

def simpleCommand (words : List Text) : Value := .list (words.map .text)

def watch (path : Value) : Action Unit := do
  let path ← display path
  send (simpleCommand ["watch", path])
  let _ ← accept (Reply.envelope "watch" (← read))
  record .info (("Watching " : Text) ++ path)

def watchDel (path : Value) : Action Unit := do
  let path ← display path
  send (simpleCommand ["watch-del", path])
  let _ ← accept (Reply.envelope "watch-del" (← read))
  record .info (("Stopped watching " : Text) ++ path)

def watchList : Action WatchedRoots := do
  send (simpleCommand ["watch-list"])
  accept (Reply.watchedRoots (← read))

def queryRequest (path expression fields : Value) : Except Failure Value := do
  let expression ← (Expression.wireOf expression).mapError .argument
  let names ← (Field.namesOf fields).mapError .fields
  let path ← path.display.mapError .tooLong
  let names := names.map fun f => Value.text f.word
  pure (.list [.text "query", .text path,
    .dict [(.text "expression", expression), (.text "fields", .list names)]])

/-- The mask that is sent when the caller names no fields: the name alone. -/
def defaultFields : Value := .int Field.name.bit

def query (path expression fields : Value) : Action QueryAnswer := do
  send (← lift id (queryRequest path expression fields))
  let result ← accept (Reply.queryAnswer (← read))
  let path ← display path
  let fresh : Text := if result.isFreshInstance then "True" else "False"
  record .debug (("query " : Text) ++ path ++ ": " ++ Text.ofNat result.files.length ++
    " files, clock " ++ result.clock ++ ", fresh=" ++ fresh)
  pure result

def describe (c : Client) : Text :=
  ("<Connection " : Text) ++ c.path.quoted ++ (if c.isOpen then " open>" else " closed>")

end Client

end FileWatch
