import Mathlib.Data.List.Basic

/-! # Obligations along a trace

An event can owe something that a later event has to pay. A trace is settled when everything owed
is paid later in it; a part of a trace is settled up to what may still be paid after it, so that the
parts of a trace are treated one by one. -/

namespace IOSDeviceManager.General

variable {ε κ : Type*} (owes pays : ε → κ → Prop)

/-- One of the events pays. -/
def PaidIn (events : List ε) (k : κ) : Prop :=
  ∃ e ∈ events, pays e k

/-- Whatever an event owes is paid by a later one, or is left for afterwards. -/
def Settled (afterwards : κ → Prop) : List ε → Prop
  | [] => True
  | e :: rest => (∀ k, owes e k → PaidIn pays rest k ∨ afterwards k) ∧ Settled afterwards rest

variable {owes pays} {afterwards afterwards' : κ → Prop}

/-- What is paid in a trace is paid in one of its parts. -/
theorem paidIn_append {events later : List ε} {k : κ} :
    PaidIn pays (events ++ later) k ↔ PaidIn pays events k ∨ PaidIn pays later k := by
  constructor
  · rintro ⟨e, he, hpays⟩
    exact (List.mem_append.mp he).imp (fun h => ⟨e, h, hpays⟩) fun h => ⟨e, h, hpays⟩
  · rintro (⟨e, he, hpays⟩ | ⟨e, he, hpays⟩)
    · exact ⟨e, List.mem_append_left _ he, hpays⟩
    · exact ⟨e, List.mem_append_right _ he, hpays⟩

/-- What is paid later is paid. -/
theorem PaidIn.cons {e : ε} {events : List ε} {k : κ} (h : PaidIn pays events k) :
    PaidIn pays (e :: events) k :=
  let ⟨e', he', hpays⟩ := h
  ⟨e', List.mem_cons_of_mem _ he', hpays⟩

@[simp] theorem settled_nil : Settled owes pays afterwards [] := trivial

/-- A trace is settled if its first event is, and the rest. -/
theorem settled_cons {e : ε} {rest : List ε} :
    Settled owes pays afterwards (e :: rest) ↔
      (∀ k, owes e k → PaidIn pays rest k ∨ afterwards k) ∧ Settled owes pays afterwards rest :=
  Iff.rfl

/-- **Composition.** A trace is settled when its first part is settled up to what the second pays,
and the second part is settled. -/
theorem settled_append {events later : List ε} :
    Settled owes pays afterwards (events ++ later) ↔
      Settled owes pays (fun k => PaidIn pays later k ∨ afterwards k) events ∧
        Settled owes pays afterwards later := by
  induction events with
  | nil => simp
  | cons e events ih =>
    simp only [List.cons_append, settled_cons, ih, paidIn_append, or_assoc, and_assoc]

/-- More may be left for afterwards, if it is left only where it is owed. -/
theorem Settled.imp {events : List ε} (h : Settled owes pays afterwards events)
    (himp : ∀ e ∈ events, ∀ k, owes e k → afterwards k → afterwards' k) :
    Settled owes pays afterwards' events := by
  induction events with
  | nil => trivial
  | cons e events ih =>
    refine ⟨fun k hk => (h.1 k hk).imp_right (himp e List.mem_cons_self k hk), ?_⟩
    exact ih h.2 fun e' he' => himp e' (List.mem_cons_of_mem _ he')

/-- Events all of whose debts are left for afterwards. -/
theorem settled_of_forall {events : List ε} (h : ∀ e ∈ events, ∀ k, owes e k → afterwards k) :
    Settled owes pays afterwards events := by
  induction events with
  | nil => trivial
  | cons e events ih =>
    exact ⟨fun k hk => .inr (h e List.mem_cons_self k hk),
      ih fun e' he' => h e' (List.mem_cons_of_mem _ he')⟩

/-- **What settled means.** Whatever an event of a settled trace owes is paid after it, or is left
for afterwards. -/
theorem Settled.paidIn {events before later : List ε} {e : ε}
    (h : Settled owes pays afterwards events) (hsplit : events = before ++ e :: later) {k : κ}
    (hk : owes e k) : PaidIn pays later k ∨ afterwards k := by
  subst hsplit
  exact (settled_append.mp h).2.1 k hk

end IOSDeviceManager.General
