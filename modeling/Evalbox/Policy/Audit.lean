import Evalbox.Datum.Basic
import Evalbox.Policy.Basic

/-!
# Audited operations

Operations that reach outside are announced as events, a name with arguments. `Policy.auditFault?`
says which of them a policy rejects: those blocked by name, and the opening of files for writing if
the policy blocks `open:write`.
-/

namespace Evalbox

/-- An announced operation. -/
structure AuditEvent where
  name : String
  args : List Datum
  deriving Inhabited

/-- The bits of an open call that ask for writing: write only, read and write, create, truncate,
append. -/
def writeBits : Nat := 1 ||| 2 ||| 64 ||| 512 ||| 1024

/-- Whether an integer has one of the bits that ask for writing. -/
def hasWriteBit (flags : Int) : Bool := (flags % 2048).toNat &&& writeBits ≠ 0

/-- Whether a mode and flags ask for writing. The flags decide only where there is no mode text. -/
def isWriteMode (mode flags : Datum) : Bool :=
  match mode with
  | .text m => m.toList.any "wax+".toList.contains
  | _ =>
    match flags with
    | .int n => hasWriteBit n
    | .bool b => b
    | _ => false

namespace Policy

/-- Why a policy rejects an operation, if it does. -/
def auditFault? (p : Policy) (e : AuditEvent) : Option Fault :=
  let blocked : Option Fault :=
    if p.blocksEvent e.name then some (.policy ("Operation '" ++ e.name ++ "' is blocked by policy"))
    else none
  if e.name = "open" && p.blocksEvent "open:write" then
    match e.args with
    | path :: mode :: rest =>
      if isWriteMode mode (rest.head?.getD .none) then
        some (.policy ("Writing files is blocked by policy: " ++ path.shown))
      else blocked
    | _ => blocked
  else blocked

/-- Without a policy every operation passes. -/
def auditFault (active : Option Policy) (e : AuditEvent) : Option Fault :=
  active.bind (·.auditFault? e)

end Policy

end Evalbox
