import NetUtils.Transition
import Mathlib.Data.Nat.Notation

/-!
# A growing pool of machines

A server has a machine for each of its clients, all of one kind. New ones are
added at the end of a list, and a step of the server is a step of one of them or
of none. What holds of every member is kept by the three kinds of steps if it is
kept by the members a step leaves alone, and holds of the one that has joined
(`Pool.forall_join`) or moved (`Pool.forall_move`).

What every run of the machine satisfies, each member of the pool satisfies,
because its state is one that its machine reaches through the events that are
its own (`MembersRun`). The events of the server are of a type of its own; `mine`
says of which member an event is, and what it is there.
-/

variable {σ α ε η : Type}

namespace Pool

section Members

variable {members : List σ} {d : ℕ} {x : σ} {P : ℕ → σ → Prop}

/-- **A property of all members, where one has joined.** -/
theorem forall_join (hall : ∀ c s, members[c]? = some s → P c s) (hnew : P members.length x) :
    ∀ c s, (members ++ [x])[c]? = some s → P c s := by
  intro c s hc
  rcases Nat.lt_trichotomy c members.length with hlt | rfl | hgt
  · exact hall c s (by rwa [List.getElem?_append_left hlt] at hc)
  · rw [List.getElem?_concat_length] at hc
    exact Option.some.inj hc ▸ hnew
  · rw [List.getElem?_eq_none (by rw [List.length_append]; exact hgt)] at hc
    cases hc

/-- **A property of all members, where one has moved.** -/
theorem forall_move (hothers : ∀ c s, members[c]? = some s → c ≠ d → P c s) (hnew : P d x) :
    ∀ c s, (members.set d x)[c]? = some s → P c s := by
  intro c s hc
  by_cases hcd : c = d
  · subst hcd
    rw [List.getElem?_set_self (by simpa using (List.getElem?_eq_some_iff.mp hc).1)] at hc
    exact Option.some.inj hc ▸ hnew
  · rw [List.getElem?_set_ne (Ne.symm hcd)] at hc
    exact hothers c s hc hcd

end Members

section Events

variable (mine : η → Option (ℕ × ε))

/-- The events of the member `c`. -/
def eventsOf (c : ℕ) (es : List η) : List ε :=
  es.filterMap fun e => (mine e).bind fun p => if p.1 = c then some p.2 else none

theorem eventsOf_append (c : ℕ) (es es' : List η) :
    eventsOf mine c (es ++ es') = eventsOf mine c es ++ eventsOf mine c es' :=
  List.filterMap_append

variable {mine}

theorem eventsOf_of_none {es : List η} (h : ∀ e ∈ es, mine e = none) (c : ℕ) :
    eventsOf mine c es = [] :=
  List.filterMap_eq_nil_iff.mpr fun e he => by rw [h e he]; rfl

theorem eventsOf_self {d : ℕ} (f : ε → η) (hf : ∀ e, mine (f e) = some (d, e)) (es : List ε) :
    eventsOf mine d (es.map f) = es := by
  rw [eventsOf, List.filterMap_map, Function.comp_def]
  simp [hf]

theorem eventsOf_of_ne {c d : ℕ} (hne : d ≠ c) (f : ε → η)
    (hf : ∀ e, mine (f e) = some (d, e)) (es : List ε) : eventsOf mine c (es.map f) = [] := by
  rw [eventsOf, List.filterMap_map, Function.comp_def]
  simp [hf, hne]

end Events

/-- **Each member has run its own machine** through its own events, from one of
the states that `Start` allows, in steps that meet `ok`. -/
structure MembersRun (M : Machine σ α ε) (ok : σ → α → Prop) (Start : σ → Prop)
    (mine : η → Option (ℕ × ε)) (es : List η) (members : List σ) : Prop where
  /-- A member's state is one its machine reaches with its events. -/
  run : ∀ c s, members[c]? = some s → ∃ s₀, Start s₀ ∧ M.Run ok s₀ (eventsOf mine c es) s
  /-- Who has not joined has no events. -/
  fresh : ∀ c, members.length ≤ c → eventsOf mine c es = []

variable {M : Machine σ α ε} {ok : σ → α → Prop} {Start : σ → Prop}
variable {mine : η → Option (ℕ × ε)} {es : List η} {members : List σ}

theorem MembersRun.nil : MembersRun M ok Start mine [] [] where
  run := fun c _ hc => by cases c <;> cases hc
  fresh := fun _ _ => rfl

/-- A step that concerns no member. -/
theorem MembersRun.others (hi : MembersRun M ok Start mine es members) (es' : List η)
    (hnone : ∀ e ∈ es', mine e = none) : MembersRun M ok Start mine (es ++ es') members := by
  have hsame (c : ℕ) : eventsOf mine c (es ++ es') = eventsOf mine c es := by
    rw [eventsOf_append, eventsOf_of_none hnone, List.append_nil]
  refine ⟨fun c s hc => ?_, fun c hc => (hsame c).trans (hi.fresh c hc)⟩
  rw [hsame]
  exact hi.run c s hc

/-- A member joins. -/
theorem MembersRun.join (hi : MembersRun M ok Start mine es members) {s : σ} (hstart : Start s) :
    MembersRun M ok Start mine es (members ++ [s]) where
  run := forall_join hi.run ⟨s, hstart, by rw [hi.fresh _ (Nat.le_refl _)]; exact .start⟩
  fresh := fun c hc => hi.fresh c (by rw [List.length_append] at hc; exact Nat.le_of_lt hc)

/-- **A member takes a step of its machine.** -/
theorem MembersRun.move (hi : MembersRun M ok Start mine es members) {d : ℕ} {s s' : σ} {a : α}
    {es' : List ε} {f : ε → η} (hf : ∀ e, mine (f e) = some (d, e)) (hd : members[d]? = some s)
    (hok : ok s a) (hs : M.step s a = some (s', es')) :
    MembersRun M ok Start mine (es ++ es'.map f) (members.set d s') where
  run := by
    refine forall_move (fun c t hc hne => ?_) ?_
    · rw [eventsOf_append, eventsOf_of_ne hne.symm f hf, List.append_nil]
      exact hi.run c t hc
    · obtain ⟨s₀, hstart, hrun⟩ := hi.run d s hd
      rw [eventsOf_append, eventsOf_self f hf]
      exact ⟨s₀, hstart, hrun.snoc hok hs⟩
  fresh := fun c hc => by
    rw [List.length_set] at hc
    have hlt := (List.getElem?_eq_some_iff.mp hd).1
    have hne : d ≠ c := Nat.ne_of_lt (Nat.lt_of_lt_of_le hlt hc)
    rw [eventsOf_append, hi.fresh c hc, eventsOf_of_ne hne f hf, List.append_nil]

end Pool
