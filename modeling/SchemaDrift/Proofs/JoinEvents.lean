/-
  SchemaDrift/Proofs/JoinEvents.lean
  ==================================
  **What the events of a model tell of its joins, and what they leave out.**

  An observer who counts the joins by their signatures can keep books: what was there,
  what came and what went.  Every edit that adds or removes single joins tells of each
  of them, a table that goes takes its joins along and tells of them too, and compiling
  changes names but no signature (`signatures_compile`).  Loading is the exception: the
  joins of a batch come without an event.

  `Accounts` is the balance of the books, with the joins that came without an event on an
  entry of their own.  An edit keeps the balance (`History.AccountsFrom.step`), and so does
  a history (`History.AccountsFrom.after`).  Main statement: `joins_accounted`, by which the
  events tell of all joins exactly as long as no join is loaded.
-/
import Mathlib.Algebra.Order.Group.Multiset
import SchemaDrift.Proofs.Derivation

namespace SchemaDrift

/-! ### Counting joins -/

/-- The signatures of some joins, each as often as it occurs. -/
def signaturesOf (js : List Join) : Multiset String := js.map Join.signature

@[simp] theorem signaturesOf_nil : signaturesOf [] = 0 := rfl

@[simp] theorem signaturesOf_append (js ks : List Join) :
    signaturesOf (js ++ ks) = signaturesOf js + signaturesOf ks := by
  rw [signaturesOf, List.map_append]
  rfl

theorem signaturesOf_perm {js ks : List Join} (h : js.Perm ks) :
    signaturesOf js = signaturesOf ks := Multiset.coe_eq_coe.2 (h.map _)

theorem signaturesOf_eq_zero {js : List Join} : signaturesOf js = 0 ↔ js = [] := by
  rw [signaturesOf, Multiset.coe_eq_zero, List.map_eq_nil_iff]

/-- Made-up names do not enter the signatures. -/
theorem signaturesOf_nameJoins (taken : TakenNames) (js : List Join) :
    signaturesOf (nameJoins taken js) = signaturesOf js := by
  have hanonymous : ∀ ks : List Join,
      ks.map Join.signature = (ks.map Join.anonymous).map Join.signature := by
    intro ks
    rw [List.map_map]
    rfl
  rw [signaturesOf, signaturesOf, hanonymous, map_anonymous_nameJoins, ← hanonymous]

theorem signatures_compile (m : Model) : signaturesOf m.compile.joins = signaturesOf m.joins :=
  signaturesOf_nameJoins _ _

namespace JoinEvent

def added? : JoinEvent → Option Join
  | added j => some j
  | removed _ => none

def removed? : JoinEvent → Option Join
  | added _ => none
  | removed j => some j

end JoinEvent

theorem filterMap_added?_removed (js : List Join) :
    (js.map JoinEvent.removed).filterMap JoinEvent.added? = [] := by
  simp [List.filterMap_map, Function.comp_def, JoinEvent.added?]

theorem filterMap_removed?_removed (js : List Join) :
    (js.map JoinEvent.removed).filterMap JoinEvent.removed? = js := by
  simp [List.filterMap_map, Function.comp_def, JoinEvent.removed?]

/-! ### Keeping books -/

/-- The joins that an edit brings into a model without an event. -/
def Edit.loads (m : Model) : Edit → List Join
  | loadJoins joins => m.resolvable joins
  | loadForeignKeys foreignKeys =>
    m.resolvable (foreignKeys.filterMap fun fk => (Join.ofForeignKey m fk).toOption)
  | _ => []

/-- The joins that a list of edits brings into a model without an event. -/
def History.loads (h : History) : List Edit → List Join
  | [] => []
  | e :: edits => e.loads h.model ++ (h.step e).loads edits

/-- What an outcome tells of the joins, and what came besides, accounts for the difference between
    two lists of joins: what went is added to what is there. -/
def Accounts (before after : List Join) (events : List JoinEvent) (loaded : List Join) : Prop :=
  signaturesOf after + signaturesOf (events.filterMap JoinEvent.removed?) =
    signaturesOf before + signaturesOf (events.filterMap JoinEvent.added?) + signaturesOf loaded

namespace Accounts

theorem nothing {js ks : List Join} (h : signaturesOf ks = signaturesOf js) :
    Accounts js ks [] [] := by
  simp [Accounts, h]

/-- Joins that come without an event. -/
theorem loading {js ks loaded : List Join} (h : signaturesOf ks = signaturesOf (js ++ loaded)) :
    Accounts js ks [] loaded := by
  simp [Accounts, h]

theorem adding {js ks : List Join} {j : Join} (h : signaturesOf ks = signaturesOf (js ++ [j])) :
    Accounts js ks [.added j] [] := by
  rw [Accounts, h, signaturesOf_append]
  rfl

/-- Joins that go, each with an event. -/
theorem removing {js ks kept gone : List Join} (h : signaturesOf ks = signaturesOf kept)
    (hperm : (kept ++ gone).Perm js) : Accounts js ks (gone.map .removed) [] := by
  have hall := signaturesOf_perm hperm
  rw [signaturesOf_append] at hall
  rw [Accounts, filterMap_added?_removed, filterMap_removed?_removed, h, hall]
  simp

theorem trans {js ks ls : List Join} {events events' : List JoinEvent}
    {loaded loaded' : List Join} (h : Accounts js ks events loaded)
    (h' : Accounts ks ls events' loaded') :
    Accounts js ls (events ++ events') (loaded ++ loaded') := by
  rw [Accounts] at h h' ⊢
  simp only [List.filterMap_append, signaturesOf_append]
  ext signature
  have hcount := congrArg (Multiset.count signature) h
  have hcount' := congrArg (Multiset.count signature) h'
  simp only [Multiset.count_add] at hcount hcount' ⊢
  omega

end Accounts

/-! ### Edits -/

theorem perm_eraseIdx {js : List Join} {position : Nat} {j : Join} (h : js[position]? = some j) :
    (js.eraseIdx position ++ [j]).Perm js := by
  obtain ⟨hlt, rfl⟩ := List.getElem?_eq_some_iff.1 h
  exact (List.perm_append_singleton _ _).trans (List.getElem_cons_eraseIdx_perm hlt)

theorem accounts_removed {m : Model} {position : Nat} {removed : Join}
    (h : m.joins[position]? = some removed) :
    Accounts m.joins (Model.compile { m with joins := m.joins.eraseIdx position }).joins
      [.removed removed] [] := by
  have hperm : (m.joins.eraseIdx position ++ [removed]).Perm m.joins := perm_eraseIdx h
  have hsame := signatures_compile { m with joins := m.joins.eraseIdx position }
  exact (Accounts.removing hsame hperm :)

theorem accounts_removeJoin (m : Model) (j : Join) :
    Accounts m.joins (m.removeJoin j).model.joins (m.removeJoin j).events [] := by
  rw [Model.removeJoin]
  split
  next => exact .nothing rfl
  next position removed hfound =>
    obtain ⟨i, -, hremoved⟩ := Option.bind_eq_some_iff.1 hfound
    obtain ⟨k, hk, ⟨⟩⟩ := Option.map_eq_some_iff.1 hremoved
    exact accounts_removed hk

/-- A change that is applied tells of every join that comes or goes. -/
theorem accounts_apply {c : Change} {m : Model} {edited : Edited Unit}
    (h : c.apply m = .ok edited) :
    Accounts m.joins edited.model.joins edited.events [] := by
  cases c with
  | addTable t =>
    obtain ⟨-, rfl⟩ := apply_addTable_eq_ok.1 h
    exact .nothing rfl
  | dropTable t =>
    obtain ⟨-, rfl⟩ := apply_dropTable_eq_ok.1 h
    exact .removing (signatures_compile _)
      (List.perm_append_comm.trans (List.filter_append_perm _ _))
  | addJoin j referencing =>
    obtain ⟨-, -, rfl⟩ := apply_addJoin_eq_ok.1 h
    exact .adding (signatures_compile _)
  | dropJoin j referencing =>
    obtain ⟨position, removed, -, hremoved, rfl⟩ := apply_dropJoin_eq_ok.1 h
    exact accounts_removed hremoved
  | _ =>
    obtain ⟨t, t', -, -, rfl⟩ := (apply_inTable_eq_ok rfl).1 h
    exact .nothing rfl

namespace History

/-- What a history has told, and what came besides, accounts for the joins that it has. -/
def AccountsFrom (h : History) (start loaded : List Join) : Prop :=
  Accounts start h.model.joins h.events loaded

theorem AccountsFrom.step {h : History} {start loaded : List Join}
    (hh : h.AccountsFrom start loaded) (e : Edit) :
    (h.step e).AccountsFrom start (loaded ++ e.loads h.model) := by
  have hchange : ∀ c : Change, (h.step (.change c)).AccountsFrom start (loaded ++ []) := by
    intro c
    rw [History.step]
    split
    next edited hrun =>
      obtain ⟨changed, hchanged, rfl⟩ := map_eq_ok.1 hrun
      exact hh.trans (accounts_apply hchanged)
    next =>
      rw [List.append_nil]
      exact hh
  cases e with
  | addTable t => exact step_addTable h t ▸ hchange _
  | removeTable name => exact step_removeTable h name ▸ hchange _
  | change c => exact hchange c
  | addJoin j => exact hh.trans (.adding (signatures_compile _))
  | removeJoin j => exact hh.trans (accounts_removeJoin h.model j)
  | compile => exact hh.trans (.nothing (signatures_compile _))
  | loadJoins joins => exact hh.trans (.loading (signatures_compile _))
  | loadForeignKeys foreignKeys => exact hh.trans (.loading (signatures_compile _))

theorem AccountsFrom.after {h : History} {start loaded : List Join}
    (hh : h.AccountsFrom start loaded) (edits : List Edit) :
    (h.after edits).AccountsFrom start (loaded ++ h.loads edits) := by
  induction edits generalizing h loaded with
  | nil =>
    rw [loads, List.append_nil]
    exact hh
  | cons e edits ih =>
    rw [loads, ← List.append_assoc]
    exact ih (hh.step e)

end History

/-- **The events tell of every join that was not loaded.**  At each point of a history the current
    joins with those that were reported as removed are the initial joins with those that were
    reported as added and those that were loaded without a word; so the events account for the
    joins exactly as long as no join is loaded. -/
theorem joins_accounted (m : Model) (edits : List Edit) :
    let reached := History.after ⟨m, []⟩ edits
    let removed := signaturesOf (reached.events.filterMap JoinEvent.removed?)
    let added := signaturesOf (reached.events.filterMap JoinEvent.added?)
    let loaded := History.loads ⟨m, []⟩ edits
    signaturesOf reached.model.joins + removed =
        signaturesOf m.joins + added + signaturesOf loaded ∧
      (signaturesOf reached.model.joins + removed = signaturesOf m.joins + added ↔
        loaded = []) := by
  intro reached removed added loaded
  have hstart : History.AccountsFrom ⟨m, []⟩ m.joins [] := .nothing rfl
  have hreached : signaturesOf reached.model.joins + removed =
      signaturesOf m.joins + added + signaturesOf loaded := hstart.after edits
  refine ⟨hreached, ?_⟩
  rw [hreached, add_eq_left, signaturesOf_eq_zero]

def employees : Model where
  tables :=
    [{ name := "EMPLOYEE"
       columns := [⟨"ID", .integer, false, true⟩, ⟨"MANAGER_ID", .integer, true, false⟩]
       primaryKey := ["ID"] }]

/-- A join that is loaded is in the model, and no event has told of it. -/
theorem joins_unaccounted :
    let reached := History.after ⟨employees, []⟩ [.loadJoins [employeeJoin "MANAGER_ID"]]
    reached.model.joins.length = 1 ∧ reached.events = [] ∧
      signaturesOf reached.model.joins +
          signaturesOf (reached.events.filterMap JoinEvent.removed?) ≠
        signaturesOf employees.joins +
          signaturesOf (reached.events.filterMap JoinEvent.added?) := by
  decide +kernel

end SchemaDrift
