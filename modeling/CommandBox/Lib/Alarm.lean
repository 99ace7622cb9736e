import Mathlib.Data.List.Nodup

/-! An alarm clock in true time. Whoever asks to be called in so many ticks is called in that
very tick, those of one tick in the order in which they asked. A `Clock` accepts a history of
events, or not. -/
namespace Alarm

variable {α : Type}

/-- Behind all that are due no later. -/
def place {κ : Type} [LE κ] [DecidableLE κ] (item : α × κ) : List (α × κ) → List (α × κ)
  | [] => [item]
  | other :: rest => if other.2 ≤ item.2 then other :: place item rest else item :: other :: rest

section Place

variable {κ : Type} [LE κ] [DecidableLE κ]

theorem place_perm (item : α × κ) (due : List (α × κ)) : (place item due).Perm (item :: due) := by
  induction due with
  | nil => exact .refl _
  | cons other rest ih =>
    unfold place
    split
    · exact (ih.cons other).trans (.swap item other rest)
    · exact .refl _

theorem mem_place {item other : α × κ} {due : List (α × κ)} :
    other ∈ place item due ↔ other = item ∨ other ∈ due := by
  rw [(place_perm item due).mem_iff, List.mem_cons]

theorem place_append {item : α × κ} {xs : List (α × κ)} (before : ∀ other ∈ xs, other.2 ≤ item.2)
    (ys : List (α × κ)) : place item (xs ++ ys) = xs ++ place item ys := by
  induction xs with
  | nil => rfl
  | cons other rest ih =>
    have head := before other List.mem_cons_self
    have tail := ih fun o inside => before o (List.mem_cons_of_mem _ inside)
    rw [List.cons_append, List.cons_append, ← tail, place, if_pos head]

theorem append_place {item : α × κ} {ys : List (α × κ)} (behind : ∀ other ∈ ys, ¬ other.2 ≤ item.2)
    (xs : List (α × κ)) : place item (xs ++ ys) = place item xs ++ ys := by
  induction xs with
  | nil =>
    cases ys with
    | nil => rfl
    | cons other rest =>
      have later : ¬ other.2 ≤ item.2 := behind other List.mem_cons_self
      simp only [List.nil_append, place, if_neg later, List.singleton_append]
  | cons other rest ih =>
    rw [List.cons_append, place, place, ih]
    split <;> rfl

theorem sublist_place (item : α × κ) (due : List (α × κ)) : due.Sublist (place item due) := by
  induction due with
  | nil => exact List.nil_sublist _
  | cons other rest ih =>
    unfold place
    split
    · exact ih.cons_cons other
    · exact List.sublist_cons_self _ _

/-- A placement depends on nothing but the order of the times. -/
theorem place_map {μ : Type} [LE μ] [DecidableLE μ] {time : κ → μ}
    (same : ∀ a b, time a ≤ time b ↔ a ≤ b) (item : α × κ) (due : List (α × κ)) :
    place (item.map id time) (due.map (Prod.map id time)) =
      (place item due).map (Prod.map id time) := by
  induction due with
  | nil => rfl
  | cons other rest ih =>
    simp only [List.map_cons, place, Prod.map_snd, same, ih]
    split <;> rfl

end Place

theorem place_ordered {item : α × Nat} {due : List (α × Nat)}
    (ordered : due.Pairwise fun a b => a.2 ≤ b.2) :
    (place item due).Pairwise fun a b => a.2 ≤ b.2 := by
  induction due with
  | nil => exact List.pairwise_singleton _ _
  | cons other rest ih =>
    obtain ⟨first, tail⟩ := List.pairwise_cons.mp ordered
    unfold place
    split
    · rename_i earlier
      refine .cons (fun o inside => ?_) (ih tail)
      rcases mem_place.mp inside with rfl | old
      · exact earlier
      · exact first o old
    · rename_i later
      have before : item.2 ≤ other.2 := Nat.le_of_not_le later
      refine .cons (fun o inside => ?_) ordered
      rcases List.mem_cons.mp inside with rfl | old
      · exact before
      · exact Nat.le_trans before (first o old)

theorem place_behind {item earlier : α × Nat} {due : List (α × Nat)}
    (ordered : due.Pairwise fun a b => a.2 ≤ b.2) (inside : earlier ∈ due)
    (order : earlier.2 ≤ item.2) : [earlier, item].Sublist (place item due) := by
  induction due with
  | nil => exact absurd inside List.not_mem_nil
  | cons other rest ih =>
    obtain ⟨first, tail⟩ := List.pairwise_cons.mp ordered
    unfold place
    rcases List.mem_cons.mp inside with rfl | later
    · rw [if_pos order]
      exact (List.singleton_sublist.mpr (mem_place.mpr (.inl rfl))).cons_cons _
    · have before : other.2 ≤ item.2 := Nat.le_trans (first earlier later) order
      rw [if_pos before]
      exact (ih tail later).cons other

/-- Who is to be called and when, the next first. -/
@[ext] structure Clock (α : Type) where
  now : Nat
  due : List (α × Nat)
  ordered : due.Pairwise fun a b => a.2 ≤ b.2
  unique : (due.map Prod.fst).Nodup
  ahead : ∀ item ∈ due, now ≤ item.2

inductive Event (α : Type) where
  | set (name : α) (ticks : Nat)
  | tick
  | ring (name : α)
  | cancel (name : α)
  deriving DecidableEq

/-- Events after which `name` no longer waits. -/
def Event.ends (name : α) (e : Event α) : Prop := e = .ring name ∨ e = .cancel name

namespace Clock

def start (α : Type) : Clock α :=
  ⟨0, [], .nil, .nil, fun _ inside => absurd inside List.not_mem_nil⟩

def set (c : Clock α) (name : α) (ticks : Nat) (fresh : name ∉ c.due.map Prod.fst) : Clock α where
  now := c.now
  due := place (name, c.now + ticks) c.due
  ordered := place_ordered c.ordered
  unique := by
    rw [((place_perm _ _).map _).nodup_iff]
    exact List.nodup_cons.mpr ⟨fresh, c.unique⟩
  ahead := by
    intro item inside
    rcases mem_place.mp inside with rfl | old
    · exact Nat.le_add_right _ _
    · exact c.ahead item old

/-- Nobody is due now who has not been called. -/
def Settled (c : Clock α) : Prop := ∀ item ∈ c.due, c.now < item.2

def tick (c : Clock α) (settled : c.Settled) : Clock α where
  now := c.now + 1
  due := c.due
  ordered := c.ordered
  unique := c.unique
  ahead := settled

def only (c : Clock α) (keep : α × Nat → Bool) : Clock α where
  now := c.now
  due := c.due.filter keep
  ordered := c.ordered.filter _
  unique := (List.filter_sublist.map _).nodup c.unique
  ahead := fun item inside => c.ahead item (List.mem_of_mem_filter inside)

def tail (c : Clock α) : Clock α where
  now := c.now
  due := c.due.tail
  ordered := c.ordered.tail
  unique := ((List.tail_sublist _).map _).nodup c.unique
  ahead := fun item inside => c.ahead item (List.mem_of_mem_tail inside)

variable [DecidableEq α]

/-- `none` is an event that cannot come next: time does not pass over somebody who is due. -/
def step (c : Clock α) : Event α → Option (Clock α)
  | .set name ticks =>
    if fresh : name ∉ c.due.map Prod.fst then some (c.set name ticks fresh) else none
  | .tick => if settled : ∀ item ∈ c.due, c.now < item.2 then some (c.tick settled) else none
  | .ring name => if c.due.head? = some (name, c.now) then some c.tail else none
  | .cancel name => some (c.only fun item => item.1 ≠ name)

def run (c : Clock α) (es : List (Event α)) : Option (Clock α) := es.foldlM step c

@[simp] theorem run_nil (c : Clock α) : c.run [] = some c := rfl

theorem run_cons (c : Clock α) (e : Event α) (es : List (Event α)) :
    c.run (e :: es) = (c.step e).bind fun c' => c'.run es := rfl

theorem run_append (c : Clock α) (es fs : List (Event α)) :
    c.run (es ++ fs) = (c.run es).bind fun c' => c'.run fs :=
  List.foldlM_append

theorem step_set {c : Clock α} {name : α} (fresh : name ∉ c.due.map Prod.fst) (ticks : Nat) :
    c.step (.set name ticks) = some (c.set name ticks fresh) := dif_pos fresh

theorem step_tick {c : Clock α} (settled : c.Settled) :
    c.step .tick = some (c.tick settled) := dif_pos settled

theorem step_ring {c : Clock α} {name : α} (first : c.due.head? = some (name, c.now)) :
    c.step (.ring name) = some c.tail := if_pos first

/-- All whose time has come are called. -/
theorem run_rings {c : Clock α} {called rest : List (α × Nat)} (due : c.due = called ++ rest)
    (here : ∀ item ∈ called, item.2 = c.now) :
    ∃ c', c.run (called.map fun item => .ring item.1) = some c' ∧ c'.now = c.now ∧
      c'.due = rest := by
  induction called generalizing c with
  | nil => exact ⟨c, rfl, rfl, due⟩
  | cons item called ih =>
    obtain ⟨name, time⟩ := item
    obtain rfl : time = c.now := here (name, time) List.mem_cons_self
    have turn : c.step (.ring name) = some c.tail := step_ring (by rw [due]; rfl)
    have tail : c.tail.due = called ++ rest := congrArg List.tail due
    obtain ⟨c', run, now, left⟩ := ih tail fun item inside => here item (List.mem_cons_of_mem _ inside)
    exact ⟨c', by rw [List.map_cons, run_cons, turn]; exact run, now, left⟩

theorem filter_called (c : Clock α) {called rest : List (α × Nat)} (due : c.due = called ++ rest) :
    (c.due.filter fun item => item.1 ∉ called.map Prod.fst) = rest := by
  have unique := c.unique
  rw [due, List.map_append] at unique
  have apart := (List.nodup_append.mp unique).2.2
  rw [due, List.filter_append, List.filter_eq_nil_iff.mpr, List.nil_append, List.filter_eq_self]
  · intro item inside
    refine decide_eq_true fun there => ?_
    exact apart item.1 there item.1 (List.mem_map_of_mem inside) rfl
  · intro item inside
    have there : item.1 ∈ called.map Prod.fst := List.mem_map_of_mem inside
    simp [there]

theorem run_cancels (c : Clock α) (names : List α) :
    ∃ c', c.run (names.map .cancel) = some c' ∧ c'.now = c.now ∧
      c'.due = c.due.filter fun item => item.1 ∉ names := by
  induction names generalizing c with
  | nil => exact ⟨c, rfl, rfl, by simp⟩
  | cons name names ih =>
    obtain ⟨c', run, now, left⟩ := ih (c.only fun item => item.1 ≠ name)
    refine ⟨c', by rw [List.map_cons, run_cons]; exact run, now, left.trans ?_⟩
    show (c.due.filter _).filter _ = _
    rw [List.filter_filter]
    refine List.filter_congr fun item _ => ?_
    simp only [List.mem_cons, not_or, ne_eq, Bool.decide_and, Bool.and_comm]

/-- What an event does to the time and to calls that it does not end. -/
theorem step_keeps {c c' : Clock α} {e : Event α} (turn : c.step e = some c') :
    c'.now = c.now + [e].count .tick ∧
      ∀ items : List (α × Nat), items.Sublist c.due → (∀ item ∈ items, ¬ e.ends item.1) →
        items.Sublist c'.due := by
  cases e with
  | set name ticks =>
    obtain ⟨_, ⟨⟩⟩ := Option.dite_none_right_eq_some.mp turn
    exact ⟨rfl, fun items inside _ => inside.trans (sublist_place _ _)⟩
  | tick =>
    obtain ⟨_, ⟨⟩⟩ := Option.dite_none_right_eq_some.mp turn
    exact ⟨rfl, fun items inside _ => inside⟩
  | ring name =>
    obtain ⟨first, ⟨⟩⟩ := Option.ite_none_right_eq_some.mp turn
    refine ⟨rfl, fun items inside others => ?_⟩
    obtain ⟨rest, list⟩ := List.head?_eq_some_iff.mp first
    show items.Sublist c.due.tail
    rw [list] at inside ⊢
    rcases List.sublist_cons_iff.mp inside with later | ⟨more, rfl, _⟩
    · exact later
    · exact absurd (.inl rfl) (others _ List.mem_cons_self)
  | cancel name =>
    cases turn
    refine ⟨rfl, fun items inside others => ?_⟩
    have all : items.filter (fun item => item.1 ≠ name) = items := List.filter_eq_self.mpr
      fun item at_ => decide_eq_true fun same => others item at_ (.inr (same ▸ rfl))
    exact all ▸ inside.filter _

theorem run_keeps {c c' : Clock α} {es : List (Event α)} (history : c.run es = some c') :
    c'.now = c.now + es.count .tick ∧
      ∀ items : List (α × Nat), items.Sublist c.due →
        (∀ item ∈ items, ∀ e ∈ es, ¬ e.ends item.1) → items.Sublist c'.due := by
  induction es generalizing c with
  | nil =>
    cases history
    exact ⟨rfl, fun items inside _ => inside⟩
  | cons e es ih =>
    rw [run_cons] at history
    obtain ⟨c₁, turn, rest⟩ := Option.bind_eq_some_iff.mp history
    obtain ⟨time, held⟩ := step_keeps turn
    obtain ⟨later, kept⟩ := ih rest
    refine ⟨?_, fun items inside quiet => ?_⟩
    · rw [later, time, Nat.add_assoc, ← List.count_append, List.singleton_append]
    · have first := held items inside fun item at_ => quiet item at_ e List.mem_cons_self
      exact kept items first fun item at_ f next => quiet item at_ f (List.mem_cons_of_mem _ next)

theorem run_set {c c' : Clock α} {name : α} {ticks : Nat} {es : List (Event α)}
    (history : c.run (.set name ticks :: es) = some c') :
    ∃ fresh, (c.set name ticks fresh).run es = some c' := by
  rw [run_cons] at history
  obtain ⟨c₁, turn, rest⟩ := Option.bind_eq_some_iff.mp history
  obtain ⟨fresh, ⟨⟩⟩ := Option.dite_none_right_eq_some.mp turn
  exact ⟨fresh, rest⟩

theorem run_ring {c c' : Clock α} {name : α} {es : List (Event α)}
    (history : c.run (.ring name :: es) = some c') : c.due.head? = some (name, c.now) := by
  rw [run_cons] at history
  obtain ⟨c₁, turn, _⟩ := Option.bind_eq_some_iff.mp history
  exact (Option.ite_none_right_eq_some.mp turn).1

theorem set_waits {c c' : Clock α} {name : α} {ticks : Nat} {es : List (Event α)}
    (history : c.run (.set name ticks :: es) = some c') (waits : ∀ e ∈ es, ¬ e.ends name) :
    (name, c.now + ticks) ∈ c'.due ∧ c'.now = c.now + es.count .tick := by
  obtain ⟨fresh, rest⟩ := run_set history
  obtain ⟨time, kept⟩ := run_keeps rest
  have inside : (name, c.now + ticks) ∈ (c.set name ticks fresh).due := mem_place.mpr (.inl rfl)
  have held := kept [(name, c.now + ticks)] (List.singleton_sublist.mpr inside)
    fun item at_ => List.mem_singleton.mp at_ ▸ waits
  exact ⟨List.singleton_sublist.mp held, time⟩

/-- Who is called is called in the tick asked for. -/
theorem set_rings {c c' : Clock α} {name : α} {ticks : Nat} {es fs : List (Event α)}
    (history : c.run (.set name ticks :: es ++ .ring name :: fs) = some c')
    (waits : ∀ e ∈ es, ¬ e.ends name) : es.count .tick = ticks := by
  rw [run_append] at history
  obtain ⟨c₁, before, after⟩ := Option.bind_eq_some_iff.mp history
  obtain ⟨inside, time⟩ := set_waits before waits
  have called : (name, c₁.now) ∈ c₁.due := List.mem_of_head? (run_ring after)
  have same : c.now + ticks = c₁.now :=
    congrArg Prod.snd (List.inj_on_of_nodup_map c₁.unique inside called rfl)
  omega

/-- Nobody is called before somebody who asked earlier and is due no later. -/
theorem set_order {c c' : Clock α} {first second : α} {m n : Nat} {es fs gs : List (Event α)}
    (history : c.run (.set first m :: es ++ .set second n :: fs ++ .ring second :: gs) = some c')
    (waits : ∀ e ∈ es ++ fs, ¬ e.ends first) (alive : ∀ e ∈ fs, ¬ e.ends second) :
    es.count .tick + n < m := by
  by_contra sooner
  rw [List.append_assoc, run_append] at history
  obtain ⟨c₁, before, after⟩ := Option.bind_eq_some_iff.mp history
  obtain ⟨inside, time⟩ := set_waits before fun e at_ => waits e (List.mem_append_left _ at_)
  rw [List.cons_append] at after
  obtain ⟨fresh, after⟩ := run_set after
  rw [run_append] at after
  obtain ⟨c₂, between, after⟩ := Option.bind_eq_some_iff.mp after
  -- the first of the two stays in front of the second until one of them is called
  have placed : [(first, c.now + m), (second, c₁.now + n)].Sublist
      (c₁.set second n fresh).due := place_behind c₁.ordered inside (by omega)
  have held := (run_keeps between).2 _ placed fun item at_ e next => by
    rcases List.mem_pair.mp at_ with rfl | rfl
    · exact waits e (List.mem_append_right _ next)
    · exact alive e next
  obtain ⟨rest, list⟩ := List.head?_eq_some_iff.mp (run_ring after)
  have unique := c₂.unique
  rw [list, List.map_cons] at unique
  have again : (second, c₁.now + n) ∈ rest := by
    rw [list] at held
    rcases List.sublist_cons_iff.mp held with later | ⟨more, same, later⟩
    · exact later.subset (by simp)
    · obtain ⟨_, rfl⟩ := List.cons.inj same
      exact List.singleton_sublist.mp later
  exact (List.nodup_cons.mp unique).1 (List.mem_map.mpr ⟨_, again, rfl⟩)

end Clock

end Alarm
