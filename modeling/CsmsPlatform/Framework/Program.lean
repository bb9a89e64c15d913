import Mathlib.Logic.Function.Basic
import Mathlib.Logic.Relation

/-!
# Programs of calls

A program makes one call at a time and goes on with the reply. It runs alone against a service, or
step by step while others change the state the service works on; programs that take turns are safe
together when each keeps what the others rely on. Where every call concerns the cell of
one key, programs of different keys do not see each other.
-/

inductive Program (Op : Type) (Reply : Op → Type) (α : Type) where
  | done (result : α)
  | call (op : Op) (next : Reply op → Program Op Reply α)

namespace Program

variable {Op : Type} {Reply : Op → Type} {α β : Type}

def bind : Program Op Reply α → (α → Program Op Reply β) → Program Op Reply β
  | .done a, f => f a
  | .call op next, f => .call op fun reply => (next reply).bind f

instance : Monad (Program Op Reply) where
  pure := .done
  bind := bind

@[simp] theorem pure_eq (a : α) : (pure a : Program Op Reply α) = .done a := rfl

@[simp] theorem done_bind (a : α) (f : α → Program Op Reply β) : (Program.done a >>= f) = f a := rfl

@[simp] theorem call_bind (op : Op) (next : Reply op → Program Op Reply α)
    (f : α → Program Op Reply β) :
    (Program.call op next >>= f) = .call op fun reply => next reply >>= f := rfl

theorem except_bind_eq_ok {ε : Type} {x : Except ε α} {f : α → Except ε β} {b : β} :
    (x >>= f) = .ok b ↔ ∃ a, x = .ok a ∧ f a = .ok b := by
  cases x <;> simp [Bind.bind,Except.bind]

def ask (op : Op) : Program Op Reply (Reply op) := .call op .done

def isDone : Program Op Reply α → Bool
  | .done _ => true
  | .call _ _ => false

def Only (P : Op → Prop) : Program Op Reply α → Prop
  | .done _ => True
  | .call op next => P op ∧ ∀ reply, Only P (next reply)

theorem Only.bind {P : Op → Prop} {p : Program Op Reply α} {f : α → Program Op Reply β}
    (h : Only P p) (hf : ∀ a, Only P (f a)) : Only P (p >>= f) := by
  induction p with
  | done a => exact hf a
  | call op next ih => exact ⟨h.1,fun reply => ih reply (h.2 reply)⟩

theorem only_ask {P : Op → Prop} {op : Op} (h : P op) :
    Only P (ask op : Program Op Reply (Reply op)) := ⟨h,fun _ => trivial⟩

def Returns (P : α → Prop) : Program Op Reply α → Prop
  | .done a => P a
  | .call _ next => ∀ reply, Returns P (next reply)

section Traces

/-- The calls of a run with their replies, whatever these are, and the result. -/
inductive Runs : Program Op Reply α → List (Sigma Reply) → α → Prop
  | done (a : α) : Runs (.done a) [] a
  | call {op : Op} {next : Reply op → Program Op Reply α} (reply : Reply op) {t : List (Sigma Reply)}
    {a : α} (h : Runs (next reply) t a) : Runs (.call op next) (⟨op,reply⟩::t) a

theorem runs_done {a b : α} {t : List (Sigma Reply)} :
    Runs (.done a : Program Op Reply α) t b ↔ t = [] ∧ b = a := by
  constructor
  · intro h
    cases h
    exact ⟨rfl,rfl⟩
  · rintro ⟨rfl,rfl⟩
    exact .done b

theorem runs_call {op : Op} {next : Reply op → Program Op Reply α} {t : List (Sigma Reply)} {b : α} :
    Runs (.call op next) t b ↔ ∃ reply t', t = ⟨op,reply⟩::t' ∧ Runs (next reply) t' b := by
  constructor
  · intro h
    cases h with
    | call reply h => exact ⟨reply,_,rfl,h⟩
  · rintro ⟨reply,t',rfl,h⟩
    exact .call reply h

theorem runs_ask {op : Op} {f : Reply op → Program Op Reply α} {t : List (Sigma Reply)} {b : α} :
    Runs (ask op >>= f) t b ↔ ∃ reply t', t = ⟨op,reply⟩::t' ∧ Runs (f reply) t' b :=
  runs_call

theorem Returns.runs {P : α → Prop} {p : Program Op Reply α} {t : List (Sigma Reply)} {a : α}
    (h : Returns P p) (hruns : Runs p t a) : P a := by
  induction hruns with
  | done a => exact h
  | call reply _ ih => exact ih (h reply)

/-- The run in which each call is replied to in one way. -/
def traceOf (replies : (op : Op) → Reply op) : Program Op Reply α → List (Sigma Reply) × α
  | .done a => ([],a)
  | .call op next => (⟨op,replies op⟩::(traceOf replies (next (replies op))).1,
      (traceOf replies (next (replies op))).2)

theorem runs_traceOf (replies : (op : Op) → Reply op) (p : Program Op Reply α) :
    Runs p (traceOf replies p).1 (traceOf replies p).2 := by
  induction p with
  | done a => exact .done a
  | call op next ih => exact .call _ (ih _)

end Traces

section Protocols

variable {σ : Type} (advance : (op : Op) → Reply op → σ → Option σ)

/-- Whatever is replied, each call is allowed in the state that it meets, and `Q` holds at the end. -/
def Follows (Q : α → σ → Prop) : Program Op Reply α → σ → Prop
  | .done a, s => Q a s
  | .call op next, s => ∀ reply, ∃ s', advance op reply s = some s' ∧ Follows Q (next reply) s'

/-- The state behind a run, if all its calls were allowed. -/
def advanceAll : List (Sigma Reply) → σ → Option σ
  | [], s => some s
  | ⟨op,reply⟩::rest, s => (advance op reply s).bind (advanceAll rest)

variable {advance} {Q : α → σ → Prop} {s : σ}

theorem Follows.runs {p : Program Op Reply α} {t : List (Sigma Reply)} {a : α}
    (h : Follows advance Q p s) (hruns : Runs p t a) :
    ∃ s', advanceAll advance t s = some s' ∧ Q a s' := by
  induction hruns generalizing s with
  | done a => exact ⟨s,rfl,h⟩
  | @call op next reply t a _ ih =>
    obtain ⟨s',hs',hnext⟩ := h reply
    obtain ⟨s'',hs'',hQ⟩ := ih hnext
    refine ⟨s'',?_,hQ⟩
    rw [advanceAll,hs',Option.bind_some,hs'']

theorem advanceAll_append (t t' : List (Sigma Reply)) (s : σ) :
    advanceAll advance (t ++ t') s = (advanceAll advance t s).bind (advanceAll advance t') := by
  induction t generalizing s with
  | nil => rfl
  | cons e t ih =>
    obtain ⟨op,reply⟩ := e
    rw [List.cons_append,advanceAll,advanceAll,Option.bind_assoc]
    exact congrArg (Option.bind _) (funext ih)

/-- What every allowed call keeps, a run of them keeps. -/
theorem advanceAll_keeps {I : σ → Prop}
    (hstep : ∀ op reply s s', advance op reply s = some s' → I s → I s') {t : List (Sigma Reply)} {s' : σ}
    (hs : I s) (h : advanceAll advance t s = some s') : I s' := by
  induction t generalizing s with
  | nil =>
    cases h
    exact hs
  | cons e t ih =>
    obtain ⟨next,hnext,hrest⟩ := Option.bind_eq_some_iff.mp h
    exact ih (hstep e.1 e.2 s next hnext hs) hrest

theorem Follows.mono {p : Program Op Reply α} {R : α → σ → Prop} (h : Follows advance Q p s)
    (hmono : ∀ a s, Q a s → R a s) : Follows advance R p s := by
  induction p generalizing s with
  | done a => exact hmono a s h
  | call op next ih =>
    intro reply
    obtain ⟨s',hs',hnext⟩ := h reply
    exact ⟨s',hs',ih reply hnext⟩

theorem Follows.bind {p : Program Op Reply α} {f : α → Program Op Reply β} {R : β → σ → Prop}
    (h : Follows advance Q p s) (hf : ∀ a s, Q a s → Follows advance R (f a) s) :
    Follows advance R (p >>= f) s := by
  induction p generalizing s with
  | done a => exact hf a s h
  | call op next ih =>
    intro reply
    obtain ⟨s',hs',hnext⟩ := h reply
    exact ⟨s',hs',ih reply hnext⟩

end Protocols

section Run

variable {σ : Type} (serve : (op : Op) → σ → Reply op × σ)

def run : Program Op Reply α → σ → α × σ
  | .done a, s => (a,s)
  | .call op next, s => run (next (serve op s).1) (serve op s).2

@[simp] theorem run_done (a : α) (s : σ) : run serve (.done a : Program Op Reply α) s = (a,s) := rfl

@[simp] theorem run_bind (p : Program Op Reply α) (f : α → Program Op Reply β) (s : σ) :
    run serve (p >>= f) s = run serve (f (run serve p s).1) (run serve p s).2 := by
  induction p generalizing s with
  | done a => rfl
  | call op next ih => exact ih _ _

@[simp] theorem run_ask (op : Op) (s : σ) :
    run serve (ask op : Program Op Reply (Reply op)) s = serve op s := rfl

end Run

section Rely

variable {O σ : Type} (serve : (op : Op) → O → σ → Reply op × σ) (rely : σ → σ → Prop)
  (I : σ → Prop)

/-- However each call fares and whatever others do before it, `I` holds after every call and `Q` at the
end. -/
def Safe (Q : α → σ → Prop) : Program Op Reply α → σ → Prop
  | .done a, s => Q a s
  | .call op next, s => ∀ s', Relation.ReflTransGen rely s s' → ∀ o,
      I (serve op o s').2 ∧ Safe Q (next (serve op o s').1) (serve op o s').2

def runWith : Program Op Reply α → (Nat → O) → σ → α × σ
  | .done a, _, s => (a,s)
  | .call op next, outcomes, s =>
    runWith (next (serve op (outcomes 0) s).1) (fun n => outcomes (n+1)) (serve op (outcomes 0) s).2

theorem runWith_const (o : O) (p : Program Op Reply α) (s : σ) :
    runWith serve p (fun _ => o) s = run (fun op s => serve op o s) p s := by
  induction p generalizing s with
  | done a => rfl
  | call op next ih => exact ih _ _

variable {serve rely I} {Q : α → σ → Prop}

theorem Safe.runWith {p : Program Op Reply α} {s : σ} (h : Safe serve rely I Q p s)
    (outcomes : Nat → O) : Q (runWith serve p outcomes s).1 (runWith serve p outcomes s).2 := by
  induction p generalizing s outcomes with
  | done a => exact h
  | call op next ih => exact ih _ (h s .refl (outcomes 0)).2 _

theorem Safe.bind {p : Program Op Reply α} {f : α → Program Op Reply β} {R : β → σ → Prop} {s : σ}
    (h : Safe serve rely I Q p s) (hf : ∀ a s, Q a s → Safe serve rely I R (f a) s) :
    Safe serve rely I R (p >>= f) s := by
  induction p generalizing s with
  | done a => exact hf a s h
  | call op next ih =>
    intro s' hs o
    obtain ⟨hI,hnext⟩ := h s' hs o
    exact ⟨hI,ih _ hnext⟩

theorem Safe.mono {p : Program Op Reply α} {R : α → σ → Prop} {s : σ} (h : Safe serve rely I Q p s)
    (hmono : ∀ a s, Q a s → R a s) : Safe serve rely I R p s := by
  induction p generalizing s with
  | done a => exact hmono a s h
  | call op next ih =>
    intro s' hs o
    obtain ⟨hI,hnext⟩ := h s' hs o
    exact ⟨hI,ih _ hnext⟩

theorem Safe.env {op : Op} {next : Reply op → Program Op Reply α} {s s' : σ}
    (h : Safe serve rely I Q (.call op next) s) (hs : rely s s') :
    Safe serve rely I Q (.call op next) s' := by
  intro t ht
  exact h t (.head hs ht)

theorem safe_ask {op : Op} {s : σ} {P : σ → Prop} (hs : P s) (hstable : ∀ s s', P s → rely s s' → P s')
    {Q : Reply op → σ → Prop}
    (hcall : ∀ s o, P s → I (serve op o s).2 ∧ Q (serve op o s).1 (serve op o s).2) :
    Safe serve rely I Q (ask op) s := by
  intro s' hrely o
  apply hcall
  induction hrely with
  | refl => exact hs
  | tail _ hstep ih => exact hstable _ _ ih hstep

end Rely

section Threads

/-- Programs that take turns on one state, each served under its own name. -/
structure Threads (ι Op : Type) (Reply : Op → Type) (α σ : Type) where
  program : ι → Program Op Reply α
  state : σ

namespace Threads

variable {ι O σ : Type} [DecidableEq ι] (serve : ι → (op : Op) → O → σ → Reply op × σ)

def step (t : Threads ι Op Reply α σ) (turn : ι × O) : Threads ι Op Reply α σ :=
  match t.program turn.1 with
  | .done _ => t
  | .call op next =>
    ⟨Function.update t.program turn.1 (next (serve turn.1 op turn.2 t.state).1),
      (serve turn.1 op turn.2 t.state).2⟩

def run (t : Threads ι Op Reply α σ) (turns : List (ι × O)) : Threads ι Op Reply α σ :=
  turns.foldl (step serve) t

/-- Each program is safe with the others around it. -/
structure AllSafe (rely : ι → σ → σ → Prop) (I : σ → Prop) (Q : ι → α → σ → Prop)
    (t : Threads ι Op Reply α σ) : Prop where
  inv : I t.state
  safe : ∀ i, Safe (serve i) (rely i) I (Q i) (t.program i) t.state

variable {serve} {rely : ι → σ → σ → Prop} {I : σ → Prop} {Q : ι → α → σ → Prop}
  {t : Threads ι Op Reply α σ}

/-- What one program does is what the others rely on. -/
theorem AllSafe.step (hdone : ∀ i a s s', Q i a s → rely i s s' → Q i a s')
    (hframe : ∀ i j, j ≠ i → ∀ op o s, I s → I (serve i op o s).2 → rely j s (serve i op o s).2)
    (h : AllSafe serve rely I Q t) (turn : ι × O) : AllSafe serve rely I Q (t.step serve turn) := by
  obtain ⟨i,o⟩ := turn
  unfold Threads.step
  cases hp : t.program i with
  | done a => exact h
  | call op next =>
    have hsafe := h.safe i
    rw [hp] at hsafe
    obtain ⟨hinv,hnext⟩ := hsafe t.state .refl o
    refine ⟨hinv,?_⟩
    intro j
    dsimp only
    by_cases hj : j = i
    · subst hj
      rw [Function.update_self]
      exact hnext
    · rw [Function.update_of_ne hj]
      have hrely := hframe i j hj op o t.state h.inv hinv
      have hother := h.safe j
      cases hpj : t.program j with
      | done a =>
        rw [hpj] at hother
        exact hdone j a _ _ hother hrely
      | call op' next' =>
        rw [hpj] at hother
        exact hother.env hrely

theorem AllSafe.run (hdone : ∀ i a s s', Q i a s → rely i s s' → Q i a s')
    (hframe : ∀ i j, j ≠ i → ∀ op o s, I s → I (serve i op o s).2 → rely j s (serve i op o s).2)
    (h : AllSafe serve rely I Q t) (turns : List (ι × O)) :
    AllSafe serve rely I Q (t.run serve turns) := by
  induction turns generalizing t with
  | nil => exact h
  | cons turn rest ih => exact ih (h.step hdone hframe turn)

/-- What every call keeps of the state is kept by a run. -/
theorem run_keeps {P : σ → Prop} (hP : ∀ i op o s, P s → P (serve i op o s).2) (h : P t.state)
    (turns : List (ι × O)) : P (t.run serve turns).state := by
  induction turns generalizing t with
  | nil => exact h
  | cons turn rest ih =>
    apply ih
    unfold Threads.step
    cases t.program turn.1 with
    | done a => exact h
    | call op next => exact hP _ _ _ _ h

end Threads

end Threads

section Cells

variable {Key Cell : Type} [DecidableEq Key] (key : Op → Key)
  (serve : (op : Op) → Cell → Reply op × Cell)

/-- A call on a whole table, which concerns the cell of its key. -/
def onCell (op : Op) (table : Key → Cell) : Reply op × (Key → Cell) :=
  ((serve op (table (key op))).1,Function.update table (key op) (serve op (table (key op))).2)

abbrev Local (k : Key) (p : Program Op Reply α) : Prop := Only (fun op => key op = k) p

variable {key serve}

theorem run_local {k : Key} {p : Program Op Reply α} (h : Local key k p) (table : Key → Cell) :
    run (onCell key serve) p table =
      ((run serve p (table k)).1,Function.update table k (run serve p (table k)).2) := by
  induction p generalizing table with
  | done a => simp
  | call op next ih =>
    obtain ⟨rfl,hnext⟩ := h
    simp only [run,onCell]
    rw [ih _ (hnext _)]
    simp

theorem runWith_local {O : Type} {serve : (op : Op) → O → Cell → Reply op × Cell} {k : Key}
    {p : Program Op Reply α} (h : Local key k p) (outcomes : Nat → O) (table : Key → Cell) :
    runWith (fun op o => onCell key (fun op => serve op o) op) p outcomes table =
      ((runWith serve p outcomes (table k)).1,
        Function.update table k (runWith serve p outcomes (table k)).2) := by
  induction p generalizing table outcomes with
  | done a => simp [runWith]
  | call op next ih =>
    obtain ⟨rfl,hnext⟩ := h
    simp only [runWith,onCell]
    rw [ih _ (hnext _)]
    simp

structure Pool (ι Op : Type) (Reply : Op → Type) (α Key Cell : Type) where
  program : ι → Program Op Reply α
  table : Key → Cell

namespace Pool

variable {ι : Type} [DecidableEq ι]

variable (key serve) in
def step (pool : Pool ι Op Reply α Key Cell) (i : ι) : Pool ι Op Reply α Key Cell :=
  match pool.program i with
  | .done _ => pool
  | .call op next =>
    ⟨Function.update pool.program i (next (onCell key serve op pool.table).1),
      (onCell key serve op pool.table).2⟩

variable (key serve) in
def steps (pool : Pool ι Op Reply α Key Cell) (schedule : List ι) : Pool ι Op Reply α Key Cell :=
  schedule.foldl (step key serve) pool

/-- Program `i` keeps to the cell of the key `k i`. -/
def Apart (key : Op → Key) (k : ι → Key) (pool : Pool ι Op Reply α Key Cell) : Prop :=
  ∀ i, Local key (k i) (pool.program i)

variable {k : ι → Key} {pool : Pool ι Op Reply α Key Cell}

variable (serve) in
/-- A turn leaves what each program comes to, alone on its own cell. -/
theorem step_keeps (hk : Function.Injective k) (h : pool.Apart key k) (i : ι) :
    (pool.step key serve i).Apart key k ∧
    (∀ j, run serve ((pool.step key serve i).program j) ((pool.step key serve i).table (k j)) =
      run serve (pool.program j) (pool.table (k j))) ∧
    ∀ x, (∀ j, x ≠ k j) → (pool.step key serve i).table x = pool.table x := by
  unfold step
  cases hp : pool.program i with
  | done a => exact ⟨h,fun _ => rfl,fun _ _ => rfl⟩
  | call op next =>
    have hlocal := h i
    rw [hp] at hlocal
    obtain ⟨hop,hnext⟩ := hlocal
    refine ⟨?_,?_,?_⟩
    · intro j
      by_cases hj : j = i
      · subst hj
        simpa using hnext _
      · simpa [hj] using h j
    · intro j
      by_cases hj : j = i
      · subst hj
        simp [onCell,hop,hp,run]
      · have hkj : k j ≠ k i := fun he => hj (hk he)
        simp [onCell,hop,hj,hkj]
    · intro x hx
      simp [onCell,hop,hx i]

variable (serve) in
theorem steps_keep (hk : Function.Injective k) (h : pool.Apart key k) (schedule : List ι) :
    (∀ j, run serve ((pool.steps key serve schedule).program j)
        ((pool.steps key serve schedule).table (k j)) = run serve (pool.program j) (pool.table (k j))) ∧
    ∀ x, (∀ j, x ≠ k j) → (pool.steps key serve schedule).table x = pool.table x := by
  induction schedule generalizing pool with
  | nil => exact ⟨fun _ => rfl,fun _ _ => rfl⟩
  | cons i rest ih =>
    obtain ⟨happart,hrun,hother⟩ := step_keeps serve hk h i
    obtain ⟨hrun',hother'⟩ := ih happart
    refine ⟨?_,?_⟩
    · intro j
      exact (hrun' j).trans (hrun j)
    · intro x hx
      exact (hother' x hx).trans (hother x hx)

end Pool

end Cells

end Program
