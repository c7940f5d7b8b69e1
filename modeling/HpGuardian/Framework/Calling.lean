import HpGuardian.Framework.Clients

/-!
# Programs that call a service

A program computes, makes a call, goes on with how the call ended, and in the end returns a value:
`Calling` is the tree of what it may do, with one branch for each way a call can end.  Such a
program can be run in two ways.  `serve` lets a service answer its calls, one after the other, and
threads the state of the service through the run.  `Client.ofCalling` makes it a program of a party
under a lease, whose call is answered whenever the protocol is done with it.

The second way is for programs that make at most one call, `AtMostOnce`.  For them both ways come
to the same: the program ends as it does where each call is answered in this one way (`endWith`),
and a service is called with the pending call, if there is one (`serve_eq`).
-/

namespace Framework

variable {κ κ' ε ε' σ χ ω ρ α β : Type}

/-- A program that makes calls and goes on with how they end: a tree with a node for each call and
a branch for each way in which the call can end, and values at its leaves. -/
inductive Calling (κ ε α : Type) where
  | done (value : α)
  | call (message : κ) (next : Except ε Unit → Calling κ ε α)

namespace Calling

def bind : Calling κ ε α → (α → Calling κ ε β) → Calling κ ε β
  | .done value, f => f value
  | .call message next, f => .call message (fun result => (next result).bind f)

instance : Monad (Calling κ ε) where
  pure := .done
  bind := bind

/-- Make a call, and return how it ended. -/
def ask (message : κ) : Calling κ ε (Except ε Unit) := .call message .done

@[simp] theorem pure_eq (value : α) : (pure value : Calling κ ε α) = .done value := rfl

@[simp] theorem done_bind (value : α) (f : α → Calling κ ε β) :
    (.done value : Calling κ ε α) >>= f = f value := rfl

@[simp] theorem call_bind (message : κ) (next : Except ε Unit → Calling κ ε α)
    (f : α → Calling κ ε β) :
    Calling.call message next >>= f = .call message (fun result => next result >>= f) := rfl

@[simp] theorem ask_bind (message : κ) (f : Except ε Unit → Calling κ ε β) :
    ask message >>= f = .call message f := rfl

/-! ## Running a program -/

/-- The value of a program whose calls all end in this way. -/
def endWith (result : Except ε Unit) : Calling κ ε α → α
  | .done value => value
  | .call _ next => (next result).endWith result

/-- A service answers the calls of a program. -/
def serve (service : σ → κ → Except ε Unit × σ) : σ → Calling κ ε α → α × σ
  | state, .done value => (value, state)
  | state, .call message next =>
      let (result, state) := service state message
      (next result).serve service state

/-- The call that a program makes first. -/
def pending : Calling κ ε α → Option κ
  | .done _ => none
  | .call message _ => some message

/-- The program makes at most one call. -/
def AtMostOnce : Calling κ ε α → Prop
  | .done _ => True
  | .call _ next => ∀ result, (next result).pending = none

@[simp] theorem endWith_done (result : Except ε Unit) (value : α) :
    (.done value : Calling κ ε α).endWith result = value := rfl

@[simp] theorem endWith_call (result : Except ε Unit) (message : κ)
    (next : Except ε Unit → Calling κ ε α) :
    (Calling.call message next).endWith result = (next result).endWith result := rfl

@[simp] theorem pending_done (value : α) : (.done value : Calling κ ε α).pending = none := rfl

@[simp] theorem pending_call (message : κ) (next : Except ε Unit → Calling κ ε α) :
    (Calling.call message next).pending = some message := rfl

/-- A program without a call ends in the same way whatever the service. -/
theorem serve_of_pending {p : Calling κ ε α} (h : p.pending = none)
    (service : σ → κ → Except ε Unit × σ) (state : σ) (result : Except ε Unit) :
    p.serve service state = (p.endWith result, state) := by
  cases p with
  | done value => rfl
  | call message next => cases h

/-- A program that makes no call, or one. -/
theorem serve_eq {p : Calling κ ε α} (h : p.AtMostOnce) (service : σ → κ → Except ε Unit × σ)
    (state : σ) (result : Except ε Unit) :
    p.serve service state =
      match p.pending with
      | none => (p.endWith result, state)
      | some message => (p.endWith (service state message).1, (service state message).2) := by
  cases p with
  | done value => rfl
  | call message next => exact serve_of_pending (h _) service _ _

end Calling

/-! ## Under a lease -/

/-- A program that makes at most one call for each operation, as a program of a party.  The party
passes the call on in its own form, and takes back how it ended. -/
def Client.ofCalling (program : χ → ω → Calling κ ε (χ × ρ)) (form : ω → κ → κ')
    (outcome : Except ε' Unit → Except ε Unit) : Client χ ω κ' ε' ρ where
  ask state operation := (program state operation).pending.map (form operation)
  answer state operation result :=
    (program state operation).endWith (outcome (result.getD (.ok ())))

section

variable {program : χ → ω → Calling κ ε (χ × ρ)} {form : ω → κ → κ'}
  {outcome : Except ε' Unit → Except ε Unit}

/-- A step of such a party, if a service answers its call in the same way. -/
theorem Client.ofCalling_step {state : χ} {operation : ω}
    (honce : (program state operation).AtMostOnce) (result : Except ε' Unit)
    {service : σ → κ → Except ε Unit × σ} {s : σ}
    (hservice : ∀ message, (service s message).1 = outcome result) :
    (Client.ofCalling program form outcome).machine.step state (operation, result) =
      let run := (program state operation).serve service s
      (run.1.1, (program state operation).pending.map (form operation), run.1.2) := by
  rw [Calling.serve_eq honce service s (outcome (.ok ()))]
  simp only [Client.machine, Client.ofCalling]
  cases hpending : (program state operation).pending with
  | none => rfl
  | some message => simp only [Option.map_some, Option.getD_some, hservice]

end

end Framework
