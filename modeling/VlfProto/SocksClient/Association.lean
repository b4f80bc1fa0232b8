import VlfProto.Platform.Once
import VlfProto.Platform.Table
import VlfProto.Transition.Path

/-!
# UDP associations of the SOCKS client

An association keeps one NAT entry for each target that its client sends to, with a session
client and a registered UDP flow of its own. The reader makes the entries and sends on them,
each entry has a goroutine that receives, a janitor closes those that are idle, and the end of
the control connection closes the association. Each critical section and each call that may
block is one action.
-/
namespace VlfProto.SocksClient
open Platform Transition Function

/-- A client, a flow or a registration that may not be there yet, or not any more. -/
inductive Resource where
  | absent
  | held
  | gone
  deriving DecidableEq

/-- The goroutines of an association, and those outside that close it. -/
inductive Goroutine where
  | reader
  | janitor
  | control
  | reverse (i : ℕ)
  | outside (k : ℕ)
  deriving DecidableEq

/-- The actions of the body of `closeEntry`. -/
inductive EntryStage where
  | unlist
  | closeFlow
  | closeClient
  | unregister
  deriving DecidableEq

structure NATEntry where
  key : String := ""
  client : Resource := .absent
  flow : Resource := .absent
  state : Resource := .absent
  closeOnce : Once Goroutine EntryStage := .idle
  deriving DecidableEq

/-- Everything that was taken for an entry has been given back. -/
structure NATEntry.HoldsNothing (e : NATEntry) : Prop where
  client : e.client ≠ .held
  flow : e.flow ≠ .held
  state : e.state ≠ .held

/-- The actions of the body of `Close`, with the entries that it still has to close. -/
inductive CloseStage where
  | signal
  | closeConns
  | empty
  | entries (todo : List ℕ)
  | onClose
  deriving DecidableEq

/-- Where the reader is: in its loop, in `getOrCreateEntry`, or closing something. The
client and the flow that `getOrCreateEntry` has got are in the entry that it will make. -/
inductive ReaderPc where
  | idle
  | read
  | lookup (key : String)
  | permit (key : String)
  | dial (key : String)
  | openFlow (e : NATEntry)
  | closeClient (e : NATEntry)
  | register (e : NATEntry)
  | insert (i : ℕ)
  | closeDuplicate (i existing : ℕ)
  | startReverse (i : ℕ)
  | send (i : ℕ)
  | closeEntry (i : ℕ)
  | close
  | returned
  deriving DecidableEq

inductive JanitorPc where
  | idle
  | wait
  | sweep (stale : List ℕ)
  | returned
  deriving DecidableEq

inductive ControlPc where
  | idle
  | copy
  | close
  | returned
  deriving DecidableEq

inductive ReversePc where
  | idle
  | receive
  | closeEntry
  | returned
  deriving DecidableEq

/-- `entries` are all entries that it ever made, `discarded` what it had of those that it could
not make; `dropped` counts the entries that `Close` took out of the table together. -/
structure Association where
  maxNAT : ℕ
  nat : Table String ℕ := ∅
  entries : ℕ → NATEntry := fun _ => {}
  entryCount : ℕ := 0
  discarded : List NATEntry := []
  closing : Bool := false
  udpClosed : Bool := false
  inItems : Bool := true
  closeOnce : Once Goroutine CloseStage := .idle
  reader : ReaderPc := .idle
  janitor : JanitorPc := .idle
  control : ControlPc := .idle
  reverse : ℕ → ReversePc := fun _ => .idle
  outside : ℕ → Bool := fun _ => false
  natAdded : ℤ := 0
  dropped : ℕ := 0

/-- What happens next. `datagram` is one that the reader accepts; `tick` and `empty` carry the
entries that a loop over the table finds, in its order; the flags tell how a call ends. -/
inductive AssociationAction where
  | serve
  | datagram (key : String)
  | reader (ok : Bool)
  | tick (stale : List ℕ)
  | janitor
  | control
  | reverse (i : ℕ) (ok : Bool)
  | outside (k : ℕ)
  | empty (order : List ℕ)

namespace Association

def new (maxNAT : ℕ) : Association := { maxNAT }

def setEntry (a : Association) (i : ℕ) (e : NATEntry) : Association :=
  { a with entries := update a.entries i e }

/-- The table has entry `i`. -/
def Listed (a : Association) (i : ℕ) : Prop := a.nat.lookup (a.entries i).key = some i

instance (a : Association) (i : ℕ) : Decidable (a.Listed i) :=
  inferInstanceAs (Decidable (_ = _))

/-- One action of the body of `closeEntry`, and the next one. -/
def entryBody (a : Association) (i : ℕ) : EntryStage → Option (Association × Option EntryStage)
  | .unlist =>
    if a.Listed i then
      some ({ a with nat := a.nat.erase (a.entries i).key, natAdded := a.natAdded - 1 },
        some .closeFlow)
    else some (a, some .closeFlow)
  | .closeFlow => some (a.setEntry i { a.entries i with flow := .gone }, some .closeClient)
  | .closeClient => some (a.setEntry i { a.entries i with client := .gone }, some .unregister)
  | .unregister => some (a.setEntry i { a.entries i with state := .gone }, none)

/-- One action of a goroutine in `closeEntry`, and whether it returns. -/
def closeEntry (a : Association) (g : Goroutine) (i : ℕ) : Option (Association × Bool) :=
  ((a.entries i).closeOnce.act g .unlist (a.entryBody i) a).map fun r =>
    (r.1.setEntry i { r.1.entries i with closeOnce := r.2.1 }, r.2.2)

/-- One action of the body of `Close`, and the next one. How the loop over the table finds
the entries is not its choice: see `emptyStep`. -/
def closeBody (a : Association) (g : Goroutine) :
    CloseStage → Option (Association × Option CloseStage)
  | .signal => some ({ a with closing := true }, some .closeConns)
  | .closeConns => some ({ a with udpClosed := true }, some .empty)
  | .empty => none
  | .entries [] => some (a, some .onClose)
  | .entries (i :: todo) => (a.closeEntry g i).map fun r =>
      (r.1, some (.entries (if r.2 then todo else i :: todo)))
  | .onClose => some ({ a with inItems := false }, none)

/-- One action of a goroutine in `Close`, and whether it returns. -/
def close (a : Association) (g : Goroutine) : Option (Association × Bool) :=
  (a.closeOnce.act g .signal (a.closeBody g) a).map fun r =>
    ({ r.1 with closeOnce := r.2.1 }, r.2.2)

/-- `Close` collects the entries of the table and makes a new one. -/
def emptyStep (a : Association) (order : List ℕ) : Option Association :=
  match a.closeOnce with
  | .running g .empty =>
    if order.Nodup ∧ (∀ i ∈ order, i < a.entryCount ∧ a.Listed i) ∧
        ∀ i < a.entryCount, a.Listed i → i ∈ order then
      some { a with
        nat := ∅
        dropped := a.dropped + a.nat.keys.card
        closeOnce := .running g (.entries order) }
    else none
  | _ => none

def serveStep (a : Association) : Option Association :=
  if a.reader = .idle ∧ a.janitor = .idle ∧ a.control = .idle then
    some { a with reader := .read, janitor := .wait, control := .copy }
  else none

def datagramStep (a : Association) (key : String) : Option Association :=
  if a.reader = .read ∧ a.udpClosed = false then some { a with reader := .lookup key } else none

def readerStep (a : Association) (ok : Bool) : Option Association :=
  match a.reader with
  | .idle => none
  | .read => some { a with reader := if a.closing then .returned else .close }
  | .lookup key =>
    match a.nat.lookup key with
    | some i => some { a with reader := .send i }
    | none =>
      if a.maxNAT ≤ a.nat.keys.card then some { a with reader := .read }
      else some { a with reader := .permit key }
  | .permit key => some { a with reader := if ok then .dial key else .read }
  | .dial key =>
    some { a with reader := if ok then .openFlow { key, client := .held } else .read }
  | .openFlow e =>
    some { a with reader := if ok then .register { e with flow := .held } else .closeClient e }
  | .closeClient e =>
    some { a with discarded := a.discarded ++ [{ e with client := .gone }], reader := .read }
  | .register e =>
    some { a.setEntry a.entryCount { e with state := .held } with
      entryCount := a.entryCount + 1
      reader := .insert a.entryCount }
  | .insert i =>
    match a.nat.lookup (a.entries i).key with
    | some j => some { a with reader := .closeDuplicate i j }
    | none => some { a with
        nat := a.nat.insert (a.entries i).key i
        natAdded := a.natAdded + 1
        reader := .startReverse i }
  | .closeDuplicate i j => (a.closeEntry .reader i).map fun r =>
      { r.1 with reader := if r.2 then .send j else .closeDuplicate i j }
  | .startReverse i =>
    some { a with reverse := update a.reverse i .receive, reader := .send i }
  | .send i => some { a with reader := if ok then .read else .closeEntry i }
  | .closeEntry i => (a.closeEntry .reader i).map fun r =>
      { r.1 with reader := if r.2 then .read else .closeEntry i }
  | .close => (a.close .reader).map fun r =>
      { r.1 with reader := if r.2 then .returned else .close }
  | .returned => none

def tickStep (a : Association) (stale : List ℕ) : Option Association :=
  if a.janitor = .wait ∧ ∀ i ∈ stale, i < a.entryCount ∧ a.Listed i then
    some { a with janitor := .sweep stale }
  else none

def janitorStep (a : Association) : Option Association :=
  match a.janitor with
  | .wait => if a.closing then some { a with janitor := .returned } else none
  | .sweep [] => some { a with janitor := .wait }
  | .sweep (i :: stale) => (a.closeEntry .janitor i).map fun r =>
      { r.1 with janitor := .sweep (if r.2 then stale else i :: stale) }
  | _ => none

def controlStep (a : Association) : Option Association :=
  match a.control with
  | .copy => some { a with control := .close }
  | .close => (a.close .control).map fun r =>
      { r.1 with control := if r.2 then .returned else .close }
  | _ => none

def setReverse (a : Association) (i : ℕ) (pc : ReversePc) : Association :=
  { a with reverse := update a.reverse i pc }

/-- A receive that times out looks at the closing signal; one that fails, or whose datagram
cannot be given to the client any more, closes the entry. -/
def reverseStep (a : Association) (i : ℕ) (ok : Bool) : Option Association :=
  match a.reverse i with
  | .receive =>
    if ok then if a.closing then some (a.setReverse i .returned) else none
    else some (a.setReverse i .closeEntry)
  | .closeEntry => (a.closeEntry (.reverse i) i).map fun r =>
      r.1.setReverse i (if r.2 then .returned else .closeEntry)
  | _ => none

/-- A goroutine outside finds the association in the manager's table, closes it and comes
back to look again. -/
def outsideStep (a : Association) (k : ℕ) : Option Association :=
  if a.outside k then
    (a.close (.outside k)).map fun r =>
      { r.1 with outside := update a.outside k (!r.2) }
  else if a.inItems then some { a with outside := update a.outside k true }
  else none

def step (a : Association) : AssociationAction → Option Association
  | .serve => a.serveStep
  | .datagram key => a.datagramStep key
  | .reader ok => a.readerStep ok
  | .tick stale => a.tickStep stale
  | .janitor => a.janitorStep
  | .control => a.controlStep
  | .reverse i ok => a.reverseStep i ok
  | .outside k => a.outsideStep k
  | .empty order => a.emptyStep order

/-- The association is closed and no goroutine of it is left. -/
@[mk_iff]
structure Finished (a : Association) : Prop where
  closed : a.closeOnce = .done
  reader : a.reader = .idle ∨ a.reader = .returned
  janitor : a.janitor = .idle ∨ a.janitor = .returned
  control : a.control = .idle ∨ a.control = .returned
  reverse : ∀ i < a.entryCount, a.reverse i = .idle ∨ a.reverse i = .returned

instance (a : Association) : Decidable a.Finished := decidable_of_iff _ a.finished_iff.symm

end Association
end VlfProto.SocksClient
