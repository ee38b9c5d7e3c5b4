import BoundSql.Monitor.Panel
import Mathlib.Data.List.Basic

/-!
# A tree of composites is flat

An event that is handed to a tree of composites comes to every leaf once for each place that the
leaf has, from left to right.  So the tree only counts by the list of its leaves
(`Fan.deliver_eq_foldl`), whatever the leaves are and whether they share anything; the induction is
on the tree, together with the lists of its children.

Of a panel this makes two closed forms.  A leaf changes by nothing but the events that come to it,
each as many times in a row as it has places (`Panel.getElem?_receiveAll`).  What is logged is the
entries of the logging leaves at all places in turn, and these do not change from one event to the
next (`Panel.receiveAll_snd`).
-/

namespace BoundSql.Monitor

/-! ## Trees -/

namespace Fan

variable {ι σ ε : Type}

mutual

/-- **Handing an event to a tree** is handing it to the leaves of the tree from left to right. -/
theorem deliver_eq_foldl (receive : ι → σ → σ) (t : Fan ι) (s : σ) :
    t.deliver receive s = t.leaves.foldl (fun s name => receive name s) s := by
  cases t with
  | leaf name => rfl
  | composite children => exact deliverAll_eq_foldl receive children s

theorem deliverAll_eq_foldl (receive : ι → σ → σ) (ts : List (Fan ι)) (s : σ) :
    deliverAll receive ts s = (leavesOf ts).foldl (fun s name => receive name s) s := by
  cases ts with
  | nil => rfl
  | cons t rest =>
    rw [deliverAll, leavesOf, List.foldl_append, ← deliver_eq_foldl receive t s]
    exact deliverAll_eq_foldl receive rest _

end

/-- The composite of the leaves of a tree. -/
def flat (t : Fan ι) : Fan ι :=
  .composite (t.leaves.map .leaf)

theorem leavesOf_map_leaf (names : List ι) : leavesOf (names.map .leaf) = names := by
  induction names with
  | nil => rfl
  | cons name rest ih => exact congrArg (name :: ·) ih

@[simp] theorem leaves_flat (t : Fan ι) : t.flat.leaves = t.leaves :=
  leavesOf_map_leaf t.leaves

/-- A tree does what the composite of its leaves does. -/
theorem deliver_flat (receive : ι → σ → σ) (t : Fan ι) (s : σ) :
    t.flat.deliver receive s = t.deliver receive s := by
  rw [deliver_eq_foldl, deliver_eq_foldl, leaves_flat]

/-- What comes to which leaf, in order: every event to all leaves from left to right, before the
next event. -/
def deliveries (t : Fan ι) (es : List ε) : List (ε × ι) :=
  es.flatMap fun e => t.leaves.map fun name => (e, name)

/-- **Handing events to a tree** in turn. -/
theorem foldl_deliver (receive : ε → ι → σ → σ) (t : Fan ι) (es : List ε) (s : σ) :
    es.foldl (fun s e => t.deliver (receive e) s) s =
      (t.deliveries es).foldl (fun s d => receive d.1 d.2 s) s := by
  induction es generalizing s with
  | nil => rfl
  | cons e es ih =>
    rw [List.foldl_cons, ih, deliver_eq_foldl, deliveries, deliveries, List.flatMap_cons,
      List.foldl_append, List.foldl_map]

end Fan

/-! ## Leaves -/

namespace Leaf

/-- A leaf after events. -/
def receiveAll (leaf : Leaf) (es : List Event) : Leaf :=
  es.foldl (fun leaf e => leaf.receive e) leaf

theorem receiveAll_append (leaf : Leaf) (es fs : List Event) :
    leaf.receiveAll (es ++ fs) = (leaf.receiveAll es).receiveAll fs :=
  List.foldl_append

/-- Statistics are kept of all events. -/
theorem receiveAll_stats (t : Tally) (es : List Event) :
    (Leaf.stats t).receiveAll es = .stats (es.foldl Tally.receive t) := by
  induction es generalizing t with
  | nil => rfl
  | cons e es ih => exact ih (t.receive e)

/-- What a leaf logs does not change by events. -/
theorem entries_receive (e : Event) (leaf : Leaf) (f : Event) :
    (leaf.receive e).entries f = leaf.entries f := by
  cases leaf <;> rfl

theorem entries_receiveAll (es : List Event) (leaf : Leaf) (f : Event) :
    (leaf.receiveAll es).entries f = leaf.entries f := by
  induction es generalizing leaf with
  | nil => rfl
  | cons e es ih => exact (ih (leaf.receive e)).trans (entries_receive e leaf f)

end Leaf

/-! ## Panels -/

namespace Panel

/-- The panel with the composite of its leaves in the place of its tree. -/
def flat (p : Panel) : Panel :=
  { p with fan := p.fan.flat }

theorem receive_flat (p : Panel) (e : Event) :
    p.flat.receive e = ((p.receive e).1.flat, (p.receive e).2) := by
  simp only [receive, flat, Fan.deliver_flat]

/-- A panel after events, and what its leaves log for them. -/
def receiveAll (p : Panel) : List Event → Panel × List LogEntry
  | [] => (p, [])
  | e :: es =>
    let (p, first) := p.receive e
    let (p, rest) := receiveAll p es
    (p, first ++ rest)

theorem receiveAll_flat (p : Panel) (es : List Event) :
    p.flat.receiveAll es = ((p.receiveAll es).1.flat, (p.receiveAll es).2) := by
  induction es generalizing p with
  | nil => rfl
  | cons e es ih => simp only [receiveAll, receive_flat, ih]

/-- What the leaves at all places log for an event, from left to right. -/
def entries (p : Panel) (e : Event) : List LogEntry :=
  p.fan.leaves.flatMap fun place => p.leaves[place]?.elim [] (Leaf.entries e)

/-- What is logged at a place is the same after the leaf there has changed by events. -/
theorem elim_entries_map {change : Leaf → Leaf}
    (same : ∀ leaf f, (change leaf).entries f = leaf.entries f) (leaf? : Option Leaf) (f : Event) :
    (leaf?.map change).elim [] (Leaf.entries f) = leaf?.elim [] (Leaf.entries f) := by
  cases leaf? with
  | none => rfl
  | some leaf => exact same leaf f

/-- An event at one place. -/
theorem receiveAt_eq (e : Event) (place : Nat) (ls : List Leaf) (log : List LogEntry) :
    receiveAt e place (ls, log) =
      (ls.modify place (Leaf.receive e), log ++ ls[place]?.elim [] (Leaf.entries e)) := by
  rw [List.modify_eq_set_getElem?, receiveAt]
  cases ls[place]? with
  | none => exact congrArg (ls, ·) (List.append_nil log).symm
  | some leaf => rfl

/-- An event at places in turn, one of them perhaps several times. -/
theorem foldl_receiveAt (e : Event) (places : List Nat) (ls : List Leaf) (log : List LogEntry) :
    places.foldl (fun q place => receiveAt e place q) (ls, log) =
      (places.foldl (fun ls place => ls.modify place (Leaf.receive e)) ls,
        log ++ places.flatMap fun place => ls[place]?.elim [] (Leaf.entries e)) := by
  induction places generalizing ls log with
  | nil => simp
  | cons first rest ih =>
    have same (place : Nat) : (ls.modify first (Leaf.receive e))[place]?.elim [] (Leaf.entries e) =
        ls[place]?.elim [] (Leaf.entries e) := by
      rw [List.getElem?_modify]
      refine elim_entries_map (fun leaf f => ?_) ls[place]? e
      split
      · exact Leaf.entries_receive e leaf f
      · rfl
    rw [List.foldl_cons, receiveAt_eq, ih, List.foldl_cons, List.flatMap_cons, List.append_assoc]
    simp only [same]

/-- A leaf after an event has come to places in turn. -/
theorem getElem?_foldl_modify (e : Event) (places : List Nat) (ls : List Leaf) (place : Nat) :
    (places.foldl (fun ls i => ls.modify i (Leaf.receive e)) ls)[place]? =
      ls[place]?.map fun leaf => leaf.receiveAll (List.replicate (places.count place) e) := by
  induction places generalizing ls with
  | nil => simp [Leaf.receiveAll]
  | cons first rest ih =>
    rw [List.foldl_cons, ih, List.getElem?_modify, Option.map_eq_map, Option.map_map]
    refine congrArg (Option.map · ls[place]?) (funext fun leaf => ?_)
    by_cases here : first = place
    · simp [here, Leaf.receiveAll, List.replicate_succ]
    · simp [here]

/-- A leaf after an event has come to the panel. -/
theorem getElem?_receive (p : Panel) (e : Event) (place : Nat) :
    (p.receive e).1.leaves[place]? = p.leaves[place]?.map fun leaf =>
      leaf.receiveAll (List.replicate (p.fan.leaves.count place) e) := by
  simp only [receive, Fan.deliver_eq_foldl, foldl_receiveAt, getElem?_foldl_modify]

theorem receive_snd (p : Panel) (e : Event) : (p.receive e).2 = p.entries e := by
  simp only [receive, Fan.deliver_eq_foldl, foldl_receiveAt, List.nil_append]
  rfl

/-- What a panel logs for an event does not depend on the events before it. -/
theorem entries_receive (p : Panel) (e f : Event) : (p.receive e).1.entries f = p.entries f := by
  have same (place : Nat) : (p.receive e).1.leaves[place]?.elim [] (Leaf.entries f) =
      p.leaves[place]?.elim [] (Leaf.entries f) := by
    rw [getElem?_receive]
    exact elim_entries_map (Leaf.entries_receiveAll _) _ f
  have fan : (p.receive e).1.fan = p.fan := rfl
  simp only [entries, fan, same]

/-- **A leaf of a panel after events**: what it becomes by each of them in turn, as many times in a
row as it has places. -/
theorem getElem?_receiveAll (p : Panel) (es : List Event) (place : Nat) :
    (p.receiveAll es).1.leaves[place]? = p.leaves[place]?.map fun leaf =>
      leaf.receiveAll (es.flatMap (List.replicate (p.fan.leaves.count place))) := by
  induction es generalizing p with
  | nil => simp [receiveAll, Leaf.receiveAll]
  | cons e es ih =>
    have fan : (p.receive e).1.fan = p.fan := rfl
    rw [receiveAll, ih, getElem?_receive, Option.map_map, fan]
    refine congrArg (Option.map · p.leaves[place]?) (funext fun leaf => ?_)
    rw [List.flatMap_cons, Leaf.receiveAll_append]
    rfl

/-- **The log of a panel**: for each event in turn, what the leaves at all places log for it. -/
theorem receiveAll_snd (p : Panel) (es : List Event) :
    (p.receiveAll es).2 = es.flatMap p.entries := by
  induction es generalizing p with
  | nil => rfl
  | cons e es ih =>
    rw [receiveAll, List.flatMap_cons, ← receive_snd]
    refine congrArg ((p.receive e).2 ++ ·) ((ih _).trans ?_)
    exact congrArg (es.flatMap ·) (funext (p.entries_receive e))

end Panel

/-- **A tree of composites is flat.**  Whatever the leaves of a tree do, handing events to the tree
hands each of them, as it is, once to every leaf at every place it has, from left to right and
before the next event; so the composite of these leaves does the same.  In a panel a leaf becomes
what it would by these events alone, and what is logged is what the leaves at all places log for one
event after the other.  Statistics that have one place end as if they had been told the events
themselves. -/
theorem fan_flattens (es : List Event) :
    (∀ {ι σ : Type} (t : Fan ι) (receive : Event → ι → σ → σ) (s : σ),
      let told := es.foldl (fun s e => t.deliver (receive e) s) s
      told = (t.deliveries es).foldl (fun s d => receive d.1 d.2 s) s ∧
        es.foldl (fun s e => t.flat.deliver (receive e) s) s = told) ∧
    ∀ p : Panel,
      let out := p.receiveAll es
      p.flat.receiveAll es = (out.1.flat, out.2) ∧ out.2 = es.flatMap p.entries ∧
      (∀ place : Nat, out.1.leaves[place]? = p.leaves[place]?.map fun leaf : Leaf =>
        leaf.receiveAll (es.flatMap (List.replicate (p.fan.leaves.count place)))) ∧
      ∀ (place : Nat) (t : Tally), p.fan.leaves.count place = 1 →
        p.leaves[place]? = some (.stats t) →
        out.1.leaves[place]?.bind Leaf.stats? = some (es.foldl Tally.receive t).stats := by
  constructor
  · intro ι σ t receive s
    refine ⟨Fan.foldl_deliver receive t es s, ?_⟩
    simp only [Fan.deliver_flat]
  · intro p out
    refine ⟨p.receiveAll_flat es, p.receiveAll_snd es, p.getElem?_receiveAll es, ?_⟩
    intro place t once there
    have events : es.flatMap (List.replicate 1) = es := List.flatMap_singleton' es
    rw [p.getElem?_receiveAll es, once, there, events]
    exact congrArg Leaf.stats? (Leaf.receiveAll_stats t es)

/-- One leaf in two places, statistics in one, and an empty composite. -/
theorem fan_flattens_shared :
    let t : Fan Nat := .composite [.leaf 0, .composite [.composite [], .leaf 1, .leaf 0]]
    let p : Panel := ⟨t, [.record [], .stats .zero]⟩
    let e : Event := .completed (.of "DELETE FROM T" 0) ⟨5⟩ (.affected 1)
    let f : Event := .slow (.of "DELETE FROM T" 0) ⟨5⟩
    t.deliveries [e, f] = [(e, 0), (e, 1), (e, 0), (f, 0), (f, 1), (f, 0)] ∧
      (p.receiveAll [e, f]).1.leaves[0]? = some (.record [e, e, f, f]) ∧
      (p.receiveAll [e, f]).1.leaves[1]?.bind Leaf.stats? =
        some (([e, f].foldl Tally.receive .zero).stats) ∧
      ([e, f].foldl Tally.receive .zero).stats.slow = 1 := by
  intro t p e f
  obtain ⟨-, -, leaf, stats⟩ := (fan_flattens [e, f]).2 p
  exact ⟨rfl, leaf 0, stats 1 .zero rfl rfl, rfl⟩

end BoundSql.Monitor
