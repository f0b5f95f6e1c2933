import ModelGateway.Client.Basic

/-!
# Clients with a script

A client that answers from a list of prepared replies and keeps every call, in order. It stands in
for a database where only the calls matter.
-/

namespace ModelGateway

/-- A call to a client. -/
inductive ClientCall where
  | execute (delegate : String) (operation : Operation) (args : Json)
  /-- The point lookup of a relation. -/
  | lookup (delegate : String) (args : Json)
  /-- The relation of the record that the lookup found. -/
  | relation (field : String) (args : Json)
  | queryRaw (query : String) (parameters : List Json)
  | executeRaw (query : String) (parameters : List Json)

namespace ClientCall

/-- The name of the kind of call. -/
def kind : ClientCall → String
  | .execute _ _ _ => "execute"
  | .lookup _ _ => "findUnique"
  | .relation _ _ => "relation"
  | .queryRaw _ _ => "queryRaw"
  | .executeRaw _ _ => "executeRaw"

/-- The delegate that is called. -/
def delegate? : ClientCall → Option String
  | .execute delegate _ _ => some delegate
  | .lookup delegate _ => some delegate
  | _ => none

/-- The operation that is called. -/
def operation? : ClientCall → Option Operation
  | .execute _ op _ => some op
  | _ => none

/-- The relation that is read. -/
def field? : ClientCall → Option String
  | .relation field _ => some field
  | _ => none

end ClientCall

/-- What a script says about the calls that it describes. -/
structure ScriptEntry where
  kind : Option String
  delegate : Option String
  operation : Option String
  field : Option String
  /-- The error, or the value and the value of a driver that stand for it. -/
  reply : Except ClientError (Json × RawValue)

namespace ScriptEntry

/-- Whether a part of a description fits a part of a call. -/
def fits (wanted actual : Option String) : Bool :=
  match wanted with
  | none => true
  | some name => actual == some name

/-- Whether an entry describes a call. -/
def describes (e : ScriptEntry) (c : ClientCall) : Bool :=
  fits e.kind (some c.kind) && fits e.delegate c.delegate?
    && fits e.operation (c.operation?.map (·.name)) && fits e.field c.field?

end ScriptEntry

/-- The calls that a client with a script has got. -/
structure ScriptLog where
  calls : List ClientCall

namespace ScriptLog

/-- No calls. -/
def empty : ScriptLog := { calls := [] }

/-- Notes a call and gives the reply of the first entry that describes it. -/
def call (script : List ScriptEntry) (log : ScriptLog) (c : ClientCall) :
    ScriptLog × Except ClientError (Json × RawValue) :=
  ({ calls := log.calls ++ [c] },
    match script.find? (·.describes c) with
    | some e => e.reply
    | none => .ok (.null, .null))

/-- The client. -/
def client (script : List ScriptEntry) : Client ScriptLog where
  execute log delegate op args :=
    let (log, reply) := log.call script (.execute delegate op args)
    (log, reply.map (·.1))
  relation log delegate lookup field args :=
    match log.call script (.lookup delegate lookup) with
    | (log, .error e) => (log, .error e)
    | (log, .ok _) =>
      let (log, reply) := log.call script (.relation field args)
      (log, reply.map (·.1))
  queryRaw log query parameters :=
    let (log, reply) := log.call script (.queryRaw query parameters)
    (log, reply.map (·.2))
  executeRaw log query parameters :=
    let (log, reply) := log.call script (.executeRaw query parameters)
    (log, reply.map fun r => ((r.1.asNumber?).bind Number.toNat?).getD 0)

end ScriptLog

end ModelGateway
