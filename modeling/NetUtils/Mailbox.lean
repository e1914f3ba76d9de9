import NetUtils.Transition

/-!
# A mailbox of one slot

Writers store a value in the one slot and request that it be fetched; a
reader fetches on request, by copying the slot, and hands the copy on. A
value stored while another is in the slot replaces it. Requests are not
counted: two of them before a fetch are one.

Such a mailbox does not deliver every value. What it does deliver is what
`Delivers` says: each value handed on was the newest one when it was copied,
so values go out in the order they came in and none is made up; and the
newest one is never forgotten – it has been copied, or a request for it is
still there. Once no request is there and nothing is in the reader's hands, the
newest value is the last one handed on (`Delivers.last_handed`).
-/

/-- **A mailbox**: what is in the slot, whether a fetch is on its way, and the
copy that has not been handed on yet. -/
structure Mailbox (ρ : Type) where
  /-- The slot. -/
  slot : ρ
  /-- A value has been stored whose fetch is still to come. -/
  requested : Prop
  /-- The value copied and not yet handed on. -/
  inHand : Option ρ

namespace Mailbox

variable {ρ : Type}

/-- What happens at a mailbox. -/
inductive Event (ρ : Type) where
  /-- A value is stored in the slot. -/
  | stored (r : ρ)
  /-- The slot is copied. -/
  | copied (r : ρ)
  /-- The copy is handed on. -/
  | handed (r : ρ)

/-- **One step of a mailbox.** -/
inductive Move (m m' : Mailbox ρ) : List (Event ρ) → Prop where
  /-- Nothing happens. -/
  | quiet (hslot : m'.slot = m.slot) (hreq : m'.requested ↔ m.requested)
      (hhand : m'.inHand = m.inHand) : Move m m' []
  /-- A value is stored, and its fetch is still to come. -/
  | store (r : ρ) (hslot : m'.slot = r) (hreq : m'.requested)
      (hhand : m'.inHand = m.inHand) : Move m m' [.stored r]
  /-- The slot is copied, on request. -/
  | copy (hslot : m'.slot = m.slot) (hreq : m.requested) (hempty : m.inHand = none)
      (hhand : m'.inHand = some m.slot) : Move m m' [.copied m.slot]
  /-- The copy is handed on. -/
  | hand (r : ρ) (hslot : m'.slot = m.slot) (hreq : m'.requested ↔ m.requested)
      (hfull : m.inHand = some r) (hhand : m'.inHand = none) : Move m m' [.handed r]

/-! ## Histories -/

/-- The value stored by an event. -/
def Event.stored? : Event ρ → Option ρ
  | stored r => some r
  | _ => none

/-- The value copied by an event. -/
def Event.copied? : Event ρ → Option ρ
  | copied r => some r
  | _ => none

/-- The value handed on by an event. -/
def Event.handed? : Event ρ → Option ρ
  | handed r => some r
  | _ => none

/-- The values stored, in order. -/
def stores (h : List (Event ρ)) : List ρ := h.filterMap Event.stored?

/-- The values copied, in order. -/
def copies (h : List (Event ρ)) : List ρ := h.filterMap Event.copied?

/-- The values handed on, in order. -/
def handed (h : List (Event ρ)) : List ρ := h.filterMap Event.handed?

theorem stores_snoc (h : List (Event ρ)) (e : Event ρ) :
    stores (h ++ [e]) = stores h ++ e.stored?.toList := by
  rw [stores, List.filterMap_append]
  cases e <;> rfl

theorem copies_snoc (h : List (Event ρ)) (e : Event ρ) :
    copies (h ++ [e]) = copies h ++ e.copied?.toList := by
  rw [copies, List.filterMap_append]
  cases e <;> rfl

theorem handed_snoc (h : List (Event ρ)) (e : Event ρ) :
    handed (h ++ [e]) = handed h ++ e.handed?.toList := by
  rw [handed, List.filterMap_append]
  cases e <;> rfl

/-- The newest value has been copied: no value was stored after the last copy. -/
def CopiedLast (h : List (Event ρ)) : Prop :=
  ∃ h₁ r h₂, h = h₁ ++ .copied r :: h₂ ∧ stores h₂ = [] ∧ copies h₂ = []

/-- Handing a copy on is neither. -/
theorem CopiedLast.hand {h : List (Event ρ)} (hc : CopiedLast h) (r : ρ) :
    CopiedLast (h ++ [.handed r]) := by
  obtain ⟨h₁, r', h₂, rfl, hstores, hcopies⟩ := hc
  refine ⟨h₁, r', h₂ ++ [.handed r], by simp, ?_, ?_⟩
  · rw [stores_snoc, hstores]
    rfl
  · rw [copies_snoc, hcopies]
    rfl

/-- **What a mailbox guarantees** after a history. -/
structure Delivers (m : Mailbox ρ) (h : List (Event ρ)) : Prop where
  /-- The slot holds the newest value. -/
  newest : ∀ r, (stores h).getLast? = some r → m.slot = r
  /-- Nothing is fetched before something is stored. -/
  asked : m.requested → stores h ≠ []
  /-- Each value copied was the newest at that moment. -/
  latest : Machine.Preceded (fun before e => ∀ r, e = .copied r →
    (stores before).getLast? = some r) h
  /-- What is handed on is what was copied, in that order. -/
  inOrder : copies h = handed h ++ m.inHand.toList
  /-- The newest value has been copied, or its fetch is still to come. -/
  pending : stores h ≠ [] → m.requested ∨ CopiedLast h

theorem Delivers.start (r : ρ) : Delivers ⟨r, False, none⟩ [] where
  newest := nofun
  asked := False.elim
  latest := Machine.preceded_nil _
  inOrder := rfl
  pending := fun hne => absurd rfl hne

/-- **Once nothing is requested any more and nothing is in hand, the newest value
has been handed on**, and none after it. -/
theorem Delivers.last_handed {m : Mailbox ρ} {h : List (Event ρ)} (hd : Delivers m h)
    (hreq : ¬ m.requested) (hhand : m.inHand = none) :
    (handed h).getLast? = (stores h).getLast? := by
  have hcopies : copies h = handed h := by
    rw [hd.inOrder, hhand, Option.toList_none, List.append_nil]
  rw [← hcopies]
  by_cases hne : stores h = []
  · -- nothing has been copied either
    rw [hne]
    refine List.getLast?_eq_none_iff.mpr (List.filterMap_eq_nil_iff.mpr fun e he => ?_)
    cases e with
    | copied r =>
      obtain ⟨h₁, h₂, rfl⟩ := List.append_of_mem he
      have hlast := hd.latest h₁ _ h₂ rfl r rfl
      rw [stores, List.filterMap_append, List.append_eq_nil_iff] at hne
      rw [stores, hne.1] at hlast
      cases hlast
    | _ => rfl
  · obtain ⟨h₁, r, h₂, rfl, hstores, hnone⟩ := (hd.pending hne).resolve_left hreq
    have hlast := hd.latest h₁ _ h₂ rfl r rfl
    have hafter : stores (h₁ ++ .copied r :: h₂) = stores h₁ := by
      rw [stores, List.filterMap_append]
      show stores h₁ ++ stores h₂ = stores h₁
      rw [hstores, List.append_nil]
    have hcopied : copies (h₁ ++ .copied r :: h₂) = copies h₁ ++ [r] := by
      rw [copies, List.filterMap_append]
      show copies h₁ ++ r :: copies h₂ = copies h₁ ++ [r]
      rw [hnone]
    rw [hafter, hlast, hcopied, List.getLast?_concat]

/-- **Every step keeps the guarantee.** -/
theorem Delivers.move {m m' : Mailbox ρ} {h es : List (Event ρ)} (hd : Delivers m h)
    (hm : Move m m' es) : Delivers m' (h ++ es) := by
  cases hm with
  | quiet hslot hreq hhand =>
    rw [List.append_nil]
    exact ⟨fun r hr => hslot.trans (hd.newest r hr), fun hr => hd.asked (hreq.mp hr), hd.latest,
      by rw [hhand]; exact hd.inOrder, fun hne => (hd.pending hne).imp_left hreq.mpr⟩
  | store r hslot hreq hhand =>
    refine ⟨fun r' hr => ?_, fun _ => ?_, ?_, ?_, fun _ => .inl hreq⟩
    · rw [stores_snoc] at hr
      rw [hslot]
      exact Option.some.inj (List.getLast?_concat.symm.trans hr)
    · rw [stores_snoc]
      exact List.append_ne_nil_of_right_ne_nil _ (List.cons_ne_nil r [])
    · exact Machine.preceded_snoc.mpr ⟨hd.latest, nofun⟩
    · rw [hhand, copies_snoc, handed_snoc, hd.inOrder]
      simp [Event.copied?, Event.handed?]
  | copy hslot hreq hempty hhand =>
    have hstores : stores (h ++ [.copied m.slot]) = stores h := by
      simp [stores_snoc, Event.stored?]
    refine ⟨fun r hr => ?_, fun _ => ?_, ?_, ?_, fun _ => .inr ⟨h, m.slot, [], rfl, rfl, rfl⟩⟩
    · rw [hstores] at hr
      exact hslot.trans (hd.newest r hr)
    · rw [hstores]
      exact hd.asked hreq
    · -- there is a newest value, and the slot holds it
      refine Machine.preceded_snoc.mpr ⟨hd.latest, fun r hr => ?_⟩
      obtain rfl := Event.copied.inj hr
      obtain ⟨last, hlast⟩ := Option.ne_none_iff_exists'.mp
        (mt List.getLast?_eq_none_iff.mp (hd.asked hreq))
      rw [hd.newest last hlast]
      exact hlast
    · rw [hhand, copies_snoc, handed_snoc, hd.inOrder, hempty]
      simp [Event.copied?, Event.handed?]
  | hand r hslot hreq hfull hhand =>
    have hstores : stores (h ++ [.handed r]) = stores h := by
      simp [stores_snoc, Event.stored?]
    refine ⟨fun r' hr => ?_, fun hr => ?_, ?_, ?_, fun hne => ?_⟩
    · rw [hstores] at hr
      exact hslot.trans (hd.newest r' hr)
    · rw [hstores]
      exact hd.asked (hreq.mp hr)
    · exact Machine.preceded_snoc.mpr ⟨hd.latest, nofun⟩
    · rw [hhand, copies_snoc, handed_snoc, hd.inOrder, hfull]
      simp [Event.copied?, Event.handed?]
    · rw [hstores] at hne
      exact (hd.pending hne).imp hreq.mpr (fun hc => hc.hand r)

end Mailbox
