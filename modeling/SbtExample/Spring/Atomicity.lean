import SbtExample.Spring.Program

/-! # Are the service methods atomic on failure?

`PersonService` is not in a package below `impl`, so that the pointcut misses it: what
`saveTransactionTest` inserts before it throws stays. The calls of a bean that the pointcut matches
are all atomic.
-/
set_option autoImplicit false
set_option maxHeartbeats 250000

namespace SbtExample.Spring

/-- A call that ends in an exception after inserting leaves the table as it was. -/
def Served.Atomic (s : Served) : Prop :=
  ∀ e, s.result = .error e → s.inserted ≠ [] → s.after = s.before

/-- The database executes the insert of a `saveTransactionTest`. -/
def InsertsAndThrows : Call × Bool → Prop
  | (.saveTransactionTest _, executes) => executes = true
  | _ => False

section Atomicity
variable {bean : List String} {executes : Bool} {call : Call} {table : List Person}

/-! ## The methods -/

theorem getAllPerson_body (executes : Bool) (table : List Person) :
    ((Call.body executes .getAllPerson).run ⟨table, []⟩).2 = ⟨table, []⟩ := by
  cases executes <;> rfl

theorem savePerson_body (executes : Bool) (person : Option Person) (table : List Person) :
    (∃ e, (Call.body executes (.savePerson person)).run ⟨table, []⟩ = (.error e, ⟨table, []⟩)) ∨
      ∃ db, (Call.body executes (.savePerson person)).run ⟨table, []⟩ = (.ok (), db) := by
  cases person with
  | none => exact Or.inl ⟨_, rfl⟩
  | some person =>
    cases executes with
    | false => exact Or.inl ⟨_, rfl⟩
    | true => exact Or.inr ⟨_, rfl⟩

theorem saveTransactionTest_body (pk : Option String) (table : List Person) :
    (Call.body true (.saveTransactionTest pk)).run ⟨table, []⟩ =
      (.error .exception, ⟨table ++ [⟨pk, some "test111"⟩], [⟨pk, some "test111"⟩]⟩) := rfl

/-- Only a `saveTransactionTest` whose insert is executed throws after inserting. -/
theorem inserted_of_error (h : ¬ InsertsAndThrows (call, executes)) {e : Throwable} {db : Database}
    (hbody : (call.body executes).run ⟨table, []⟩ = (.error e, db)) : db = ⟨table, []⟩ := by
  cases call with
  | getAllPerson =>
    have hdb := getAllPerson_body executes table
    rwa [hbody] at hdb
  | savePerson person =>
    rcases savePerson_body executes person table with ⟨e', he⟩ | ⟨db', hok⟩
    · rw [hbody] at he
      exact (Prod.mk.inj he).2
    · rw [hbody] at hok
      cases hok
  | saveTransactionTest pk =>
    cases executes with
    | false => exact (Prod.mk.inj hbody).2.symm
    | true => exact absurd rfl h

/-! ## The advice -/

theorem invoke_unadvised (executes : Bool) (table : List Person)
    (h : advice bean call.method = none) :
    invoke bean executes call table = (call.body executes).run ⟨table, []⟩ := by
  rw [invoke, h]
  rfl

/-- The container neither makes nor hides an exception, and knows of no other inserts. -/
theorem body_of_invoke {e : Throwable} (h : (invoke bean executes call table).1 = .error e) :
    ∃ db, (call.body executes).run ⟨table, []⟩ = (.error e, db) ∧
      (invoke bean executes call table).2.inserted = db.inserted := by
  rcases hbody : (call.body executes).run ⟨table, []⟩ with ⟨result, db⟩
  rw [invoke, hbody] at h ⊢
  cases result with
  | ok value =>
    cases hadvice : advice bean call.method with
    | none => rw [hadvice] at h; cases h
    | some txAttribute => rw [hadvice] at h; cases h
  | error e' =>
    cases hadvice : advice bean call.method with
    | none =>
      rw [hadvice] at h
      cases h
      exact ⟨db, rfl, rfl⟩
    | some txAttribute =>
      rw [hadvice] at h
      simp only at h ⊢
      split at h
      next hrollback =>
        cases h
        exact ⟨db, rfl, by rw [if_pos hrollback]⟩
      next hrollback =>
        cases h
        exact ⟨db, rfl, by rw [if_neg hrollback]⟩

theorem invoke_rollback {txAttribute : TransactionAttribute} {e : Throwable} {db : Database}
    (hadvice : advice bean call.method = some txAttribute)
    (hpropagation : txAttribute.propagation = .required) (hrollback : txAttribute.rollbackOn e = true)
    (hbody : (call.body executes).run ⟨table, []⟩ = (.error e, db)) :
    invoke bean executes call table = (.error e, { db with table := table }) := by
  rw [invoke, hbody, hadvice]
  exact if_pos ⟨hpropagation, hrollback⟩

theorem advice_personService (method : String) : advice PersonService.className method = none := by
  have hmiss : typeMatches txPointcutDuty.declaringType PersonService.className = false := by decide
  simp [advice, Pointcut.applies, hmiss]

theorem advice_saveTransactionTest
    (hbean : typeMatches txPointcutDuty.declaringType bean = true) (pk : Option String) :
    advice bean (Call.saveTransactionTest pk).method = some ⟨.required, ["Exception"]⟩ := by
  have hmethod : simpleMatch txPointcutDuty.method.toList "saveTransactionTest".toList = true := by
    decide
  have hattribute : getTransactionAttribute txAdviceDuty "saveTransactionTest" =
      some ⟨.required, ["Exception"]⟩ := by decide
  show (if txPointcutDuty.applies bean "saveTransactionTest" then
    getTransactionAttribute txAdviceDuty "saveTransactionTest" else none) = _
  rw [Pointcut.applies, hbean, hmethod, Bool.and_self, if_pos rfl, hattribute]

/-! ## Calls -/

/-- What is observed of one call on `table`. -/
def served (bean : List String) (table : List Person) (c : Call × Bool) : Served :=
  ⟨table, (invoke bean c.2 c.1 table).1, (invoke bean c.2 c.1 table).2.inserted,
    (invoke bean c.2 c.1 table).2.table⟩

theorem atomic_of_not_inserts (bean : List String) (table : List Person) {c : Call × Bool}
    (h : ¬ InsertsAndThrows c) : (served bean table c).Atomic := by
  intro e he hinserted
  obtain ⟨db, hbody, hsame⟩ := body_of_invoke he
  rw [inserted_of_error h hbody] at hsame
  exact absurd hsame hinserted

theorem not_atomic_of_inserts (table : List Person) {c : Call × Bool} (h : InsertsAndThrows c) :
    ¬ (served PersonService.className table c).Atomic := by
  obtain ⟨call, executes⟩ := c
  cases call with
  | getAllPerson => exact h.elim
  | savePerson person => exact h.elim
  | saveTransactionTest pk =>
    obtain rfl : executes = true := h
    have hinvoke := (invoke_unadvised true table
      (advice_personService (Call.saveTransactionTest pk).method)).trans
      (saveTransactionTest_body pk table)
    intro hatomic
    have hafter := hatomic .exception (congrArg Prod.fst hinvoke) (by
      rw [served, hinvoke]
      simp)
    rw [served, hinvoke] at hafter
    simp at hafter

theorem atomic_of_advised (hbean : typeMatches txPointcutDuty.declaringType bean = true)
    (table : List Person) (c : Call × Bool) : (served bean table c).Atomic := by
  by_cases h : InsertsAndThrows c
  · obtain ⟨call, executes⟩ := c
    cases call with
    | getAllPerson => exact h.elim
    | savePerson person => exact h.elim
    | saveTransactionTest pk =>
      obtain rfl : executes = true := h
      intro e he hinserted
      have hinvoke := invoke_rollback (advice_saveTransactionTest hbean pk) rfl (by decide)
        (saveTransactionTest_body pk table)
      exact congrArg (fun r => r.2.table) hinvoke
  · exact atomic_of_not_inserts bean table h

/-! ## Sequences of calls -/

theorem forall_serve_iff {P : Served → Prop} {Q : Call × Bool → Prop}
    (h : ∀ table c, P (served bean table c) ↔ Q c) (table : List Person)
    (calls : List (Call × Bool)) : (∀ s ∈ serve bean table calls, P s) ↔ ∀ c ∈ calls, Q c := by
  induction calls generalizing table with
  | nil => simp [serve]
  | cons c calls ih =>
    have hserve : serve bean table (c :: calls) = served bean table c ::
        serve bean (invoke bean c.2 c.1 table).2.table calls := rfl
    rw [hserve, List.forall_mem_cons, List.forall_mem_cons, h, ih]

/-- The calls of a sequence are all atomic if and only if the database executes the insert of no
`saveTransactionTest`. -/
theorem calls_atomic_iff (table : List Person) (calls : List (Call × Bool)) :
    (∀ s ∈ serve PersonService.className table calls, s.Atomic) ↔
      ∀ c ∈ calls, ¬ InsertsAndThrows c :=
  forall_serve_iff (fun table _ => ⟨fun hatomic h => not_atomic_of_inserts table h hatomic,
    atomic_of_not_inserts PersonService.className table⟩) table calls

/-- Below `impl` the same methods would be atomic. -/
theorem calls_atomic_of_advised (hbean : typeMatches txPointcutDuty.declaringType bean = true)
    (table : List Person) (calls : List (Call × Bool)) (s : Served)
    (hs : s ∈ serve bean table calls) : s.Atomic :=
  (forall_serve_iff (Q := fun _ => True)
    (fun table c => iff_of_true (atomic_of_advised hbean table c) trivial) table calls).mpr
    (fun _ _ => trivial) s hs

end Atomicity

/-- The call of the test: its row stays. -/
theorem transaction_test_keeps_row :
    ∃ s ∈ serve PersonService.className [] [(.saveTransactionTest (some "1111"), true)],
      s.result = .error .exception ∧ s.after = [⟨some "1111", some "test111"⟩] ∧ ¬ s.Atomic := by
  refine ⟨⟨[], .error .exception, [⟨some "1111", some "test111"⟩],
    [⟨some "1111", some "test111"⟩]⟩, List.mem_singleton.mpr rfl, rfl, rfl, fun h => ?_⟩
  cases h .exception rfl (by simp)

end SbtExample.Spring
