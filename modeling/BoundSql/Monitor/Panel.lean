import BoundSql.Monitor.Logging
import BoundSql.Monitor.Stats

/-! # Panels

A composite monitor hands every event to its children in order, and its children may be composites
again.  `Fan` is the tree of composites over leaves that are known by a name; one leaf may stand at
several places.  A panel is such a tree together with the leaves and what each has seen.

A leaf either stays silent, keeps statistics, keeps the events themselves, or logs.
-/

namespace BoundSql.Monitor

/-! ### Trees of composites -/

/-- A tree of composites over named leaves. -/
inductive Fan (ι : Type) where
  | leaf (name : ι)
  | composite (children : List (Fan ι))

namespace Fan

variable {ι : Type}

mutual

/-- The leaves from left to right, one for each place. -/
def leaves : Fan ι → List ι
  | .leaf name => [name]
  | .composite children => leavesOf children

/-- The leaves of several trees. -/
def leavesOf : List (Fan ι) → List ι
  | [] => []
  | t :: rest => leaves t ++ leavesOf rest

end

mutual

/-- Hand an event to every leaf in turn; `receive` is what a leaf does with it. -/
def deliver {σ : Type} (receive : ι → σ → σ) : Fan ι → σ → σ
  | .leaf name, s => receive name s
  | .composite children, s => deliverAll receive children s

/-- Hand an event to several trees in turn. -/
def deliverAll {σ : Type} (receive : ι → σ → σ) : List (Fan ι) → σ → σ
  | [], s => s
  | t :: rest, s => deliverAll receive rest (deliver receive t s)

end

mutual

/-- The number of children of every composite, children before parents. -/
def sizes : Fan ι → List Nat
  | .leaf _ => []
  | .composite children => sizesOf children ++ [children.length]

/-- The sizes within several trees. -/
def sizesOf : List (Fan ι) → List Nat
  | [] => []
  | t :: rest => sizes t ++ sizesOf rest

end

end Fan

/-! ### Leaves -/

/-- A monitor that is no composite, with what it has seen. -/
inductive Leaf where
  | silent
  | stats (t : Tally)
  | record (events : List Event)
  | logging (l : Logging)
  deriving DecidableEq, Repr

namespace Leaf

/-- The leaf after an event. -/
def receive (e : Event) : Leaf → Leaf
  | .silent => .silent
  | .stats t => .stats (t.receive e)
  | .record events => .record (events ++ [e])
  | .logging l => .logging l

/-- What the leaf logs for an event. -/
def entries (e : Event) : Leaf → List LogEntry
  | .logging l => l.entries e
  | _ => []

/-- The statistics of the leaf. -/
def stats? : Leaf → Option Stats
  | .stats t => some t.stats
  | _ => none

/-- The events that the leaf has kept. -/
def events? : Leaf → Option (List Event)
  | .record events => some events
  | _ => none

/-- The leaf with its statistics reset. -/
def reset : Leaf → Leaf
  | .stats _ => .stats .zero
  | other => other

/-- The leaf without the events it has kept. -/
def forget : Leaf → Leaf
  | .record _ => .record []
  | other => other

end Leaf

/-! ### Panels -/

/-- A tree of composites and its leaves, named by their places in a list. -/
structure Panel where
  fan : Fan Nat
  leaves : List Leaf

namespace Panel

/-- The panel that ignores every event. -/
def silent : Panel := ⟨.leaf 0, [.silent]⟩

/-- Leaves and a log, while an event is handed out. -/
abbrev Progress := List Leaf × List LogEntry

/-- Hand an event to the leaf at a place. -/
def receiveAt (e : Event) (place : Nat) (p : Progress) : Progress :=
  match p.1[place]? with
  | none => p
  | some leaf => (p.1.set place (leaf.receive e), p.2 ++ leaf.entries e)

/-- The panel after an event, and what its leaves log for it. -/
def receive (p : Panel) (e : Event) : Panel × List LogEntry :=
  let (leaves, log) := p.fan.deliver (receiveAt e) (p.leaves, [])
  ({ p with leaves }, log)

/-- The statistics of the leaves that keep some, in order. -/
def stats (p : Panel) : List Stats :=
  p.leaves.filterMap Leaf.stats?

/-- The events of the leaves that keep them, in order. -/
def events (p : Panel) : List (List Event) :=
  p.leaves.filterMap Leaf.events?

/-- The panel without the events that its leaves have kept. -/
def forget (p : Panel) : Panel :=
  { p with leaves := p.leaves.map Leaf.forget }

/-- Reset the statistics that stand at a place among all statistics. -/
def resetStats (place : Nat) : List Leaf → List Leaf
  | [] => []
  | .stats t :: rest =>
    match place with
    | 0 => .stats .zero :: rest
    | place + 1 => .stats t :: resetStats place rest
  | other :: rest => other :: resetStats place rest

/-- The panel with one of its statistics reset. -/
def reset (p : Panel) (place : Nat) : Panel :=
  { p with leaves := resetStats place p.leaves }

end Panel

/-- A monitor as it is described: a leaf, or a composite of monitors. -/
inductive Layout where
  | leaf (l : Leaf)
  | composite (children : List Layout)

namespace Layout

mutual

/-- The leaves of a description from left to right. -/
def leaves : Layout → List Leaf
  | .leaf l => [l]
  | .composite children => leavesOf children

/-- The leaves of several descriptions. -/
def leavesOf : List Layout → List Leaf
  | [] => []
  | t :: rest => leaves t ++ leavesOf rest

end

mutual

/-- The tree of a description whose first leaf gets the name `first`, and the next free name. -/
def fanFrom (first : Nat) : Layout → Fan Nat × Nat
  | .leaf _ => (.leaf first, first + 1)
  | .composite children =>
    let (fans, next) := fansFrom first children
    (.composite fans, next)

/-- The trees of several descriptions. -/
def fansFrom (first : Nat) : List Layout → List (Fan Nat) × Nat
  | [] => ([], first)
  | t :: rest =>
    let (fan, next) := fanFrom first t
    let (fans, last) := fansFrom next rest
    (fan :: fans, last)

end

/-- The panel of a description, every leaf at a place of its own. -/
def panel (l : Layout) : Panel :=
  ⟨(fanFrom 0 l).1, leaves l⟩

end Layout

end BoundSql.Monitor
