import DevVm.Guest.Command
import DevVm.Text.Utf8
import DevVm.World.Replies

/-!
# A simulated guest

A guest answers every command with what the command writes and with its exit status. Rules
may prescribe the answers; a command without a rule writes nothing and succeeds, except
the health check, which tells whether the guest has been provisioned.

A successful command has its effect whatever prescribed the answer: provisioning makes the
guest healthy, and forgetting its health undoes that.
-/

namespace DevVm.World

/-- The answer to a command. A process may end without reporting a status. -/
structure GuestReply where
  out : Bytes := []
  err : Bytes := []
  status : Option UInt32 := some 0
deriving DecidableEq, Repr

/-- Which commands a rule is about. -/
inductive CommandPattern where
  | exactly (text : String)
  | startingWith (text : String)
deriving DecidableEq, Repr

/-- Whether a pattern fits a command's text. -/
def CommandPattern.fits (text : String) : CommandPattern → Bool
  | exactly t => t = text
  | startingWith t => t.toList.isPrefixOf text.toList

/-- A rule for commands: its answers are given one after the other, and the last one from
then on. -/
structure GuestRule where
  pattern : CommandPattern
  replies : List GuestReply
deriving DecidableEq, Repr

/-- The answer a rule gives now, if it has one. -/
def GuestRule.reply? (rule : GuestRule) : Option GuestReply := rule.replies.head?

/-- A rule after it has given an answer. -/
def GuestRule.advanced (rule : GuestRule) : GuestRule :=
  { rule with replies := Replies.advance rule.replies }

/-- A guest. -/
structure Guest where
  healthy : Bool := false
  rules : List GuestRule := []
deriving DecidableEq, Repr

namespace Guest

/-- The first rule that fits a command, with the rules once it has answered. -/
def pick? (text : String) : List GuestRule → Option (GuestReply × List GuestRule)
  | [] => none
  | rule :: more =>
    if rule.pattern.fits text then
      rule.reply?.map fun reply => (reply, rule.advanced :: more)
    else (pick? text more).map fun (reply, rest) => (reply, rule :: rest)

/-- The answer to a command for which there is no rule. -/
def plainReply (guest : Guest) (text : String) : GuestReply :=
  if text = GuestCommand.checkHealth.text ∧ !guest.healthy then { status := some 1 } else {}

/-- Whether the guest is healthy after a command that succeeded. -/
def healthAfter (healthy : Bool) (text : String) : Bool :=
  if text = GuestCommand.forgetHealth.text then false
  else if GuestCommand.provisioner.toList.isPrefixOf text.toList then true
  else healthy

/-- The answer to a command, and the guest after it. -/
def answer (text : String) (guest : Guest) : GuestReply × Guest :=
  let (reply, rules) := (pick? text guest.rules).getD (guest.plainReply text, guest.rules)
  let healthy :=
    if reply.status = some 0 then healthAfter guest.healthy text else guest.healthy
  (reply, { healthy, rules })

end Guest

end DevVm.World
