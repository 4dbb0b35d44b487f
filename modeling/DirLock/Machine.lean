import DirLock.Routine.Basic

/-!
# The machine that answers

A machine has a file tree, a current directory and a clock, and it remembers what was written to it.
It answers every request at once and in one step: a request to change the tree either changes it or
is refused with a fault. What is random comes out of a supply that is the machine's to read and not
to make.
-/

namespace DirLock

open Disk (Tree Place Fault)

/-- The random source: what the draws of each kind give. -/
structure Supply where
  nonce : Nat → Except String Nonce
  suffix : Nat → List Char

inductive Output where
  | event (time : Time.Instant) (event : Log.Event)
  | standard (text : String)
  | error (text : String)
  deriving DecidableEq, Repr

structure Machine where
  tree : Tree
  directory : Place
  clock : Time.Instant
  /-- How many random draws were made. -/
  drawn : Nat
  /-- What was written, latest first. -/
  written : List Output

namespace Machine

def ofTree (tree : Tree) (directory : Place) (clock : Time.Instant) : Machine :=
  ⟨tree, directory, clock, 0, []⟩

def transcript (machine : Machine) : List Output := machine.written.reverse

def write (machine : Machine) (output : Output) : Machine :=
  { machine with written := output :: machine.written }

def pass (machine : Machine) (nanos : Nat) : Machine :=
  { machine with clock := machine.clock.addNanos nanos }

def change (machine : Machine) (result : Except Fault Tree) : Except Fault Unit × Machine :=
  match result with
  | .ok tree => (.ok (), { machine with tree := tree })
  | .error fault => (.error fault, machine)

/-- The programs that a machine can run: whether there is one of the name, and what it does. -/
abbrev Programs := String → List String → Routine (Except Fault ChildEnd)

/-- The answer to a request that is no request for a program. -/
def answerPlain (supply : Supply) (r : Request) (machine : Machine) : r.Reply × Machine :=
  let tree := machine.tree
  let here := machine.directory
  match r with
  | .entryKind path => (tree.entryKind here path, machine)
  | .isDirectory path => (tree.isDirectory here path, machine)
  | .readFile path => (tree.readFile here path, machine)
  | .makeDirectory path => machine.change (tree.makeDirectory here path)
  | .writeFile path content => machine.change (tree.writeFile here path content)
  | .makeLink target path => machine.change (tree.makeLink here target path)
  | .rename source target => machine.change (tree.rename here source target)
  | .list path => (tree.list here path, machine)
  | .removals path => (tree.removals here path, machine)
  | .remove (.unlink path inside) => machine.change (tree.unlinkInside here path inside)
  | .remove (.removeDirectory path inside) => machine.change (tree.removeInside here path inside)
  | .unlink path => machine.change (tree.unlink here path)
  | .workingDirectory => (here.path, machine)
  | .randomNonce => (supply.nonce machine.drawn, { machine with drawn := machine.drawn + 1 })
  | .randomSuffix => (supply.suffix machine.drawn, { machine with drawn := machine.drawn + 1 })
  | .now => (machine.clock, machine)
  | .pause nanos => (nanos, machine.pass nanos)
  | .runProgram _ _ => (.error (.os .notFound), machine)
  | .note event => ((), machine.write (.event machine.clock event))
  | .print text => ((), machine.write (.standard text))
  | .complain text => ((), machine.write (.error text))

/-- The answer to a request. A program that is run makes its own requests of the same machine, all
of them before the reply. -/
def answer (supply : Supply) (programs : Programs) (r : Request) (machine : Machine) :
    r.Reply × Machine :=
  match r with
  | .runProgram program arguments =>
    (programs program arguments).run (answerPlain supply) machine
  | r => answerPlain supply r machine

end Machine

/-! ## A supply for trials -/

namespace Supply

def alphabet : List Char :=
  "ABCDEFGHIJKLMNOPQRSTUVWXYZabcdefghijklmnopqrstuvwxyz0123456789".toList

/-- Six characters that tell the draws apart. -/
def suffixOf (draw : Nat) : List Char :=
  (List.range 6).map fun i => alphabet.getD (draw / Nat.pow 62 (5 - i) % 62) 'A'

/-- A supply in which no two draws are alike. -/
def counting : Supply := ⟨fun draw => .ok (.ofNat (draw + 1)), suffixOf⟩

end Supply

end DirLock
