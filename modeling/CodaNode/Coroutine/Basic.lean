/-
`Coroutine/Basic.lean` -- coroutines as trees of synchronous code and awaited calls.

A coroutine of a cooperative scheduler runs without interruption from one `await`
to the next. The tree below keeps exactly that structure: a `sync` node is a piece
of code that reads and writes the shared state and goes on at once, an `await` node
hands a call to the outside and goes on with whatever the call answers, a value or
an exception. Every tree is finite in depth, so a coroutine makes finitely many
calls whatever the answers are; an endless loop is a coroutine that its owner
starts again.

The file is about no program in particular: the state `S`, the calls `C`, their
replies `R` and the exceptions `ε` are parameters throughout.
-/
import Mathlib.Logic.Relation

set_option autoImplicit false

namespace Coroutine

/-- A coroutine that returns an `α` or raises an `ε`. -/
inductive Co (S : Type) {C : Type} (R : C → Type) (ε α : Type) : Type where
  /-- It has returned. -/
  | ret (a : α)
  /-- It has raised. -/
  | raise (e : ε)
  /-- It replaces the state `s` by `f s` and goes on with what it read. -/
  | sync (f : S → S) (k : S → Co S R ε α)
  /-- It is suspended until the call `c` is answered. -/
  | await (c : C) (k : Except ε (R c) → Co S R ε α)

namespace Co

variable {S C : Type} {R : C → Type} {ε α β : Type}

/-! ## Sequencing -/

/-- `p`, then `f` on its value; an exception of `p` skips `f`. -/
protected def bind : Co S R ε α → (α → Co S R ε β) → Co S R ε β
  | .ret a, f => f a
  | .raise e, _ => .raise e
  | .sync u k, f => .sync u fun s => (k s).bind f
  | .await c k, f => .await c fun r => (k r).bind f

instance : Monad (Co S R ε) where
  pure := .ret
  bind := Co.bind

@[simp] theorem pure_eq (a : α) : (pure a : Co S R ε α) = .ret a := rfl

@[simp] theorem ret_bind (a : α) (f : α → Co S R ε β) : Co.ret a >>= f = f a := rfl

@[simp] theorem raise_bind (e : ε) (f : α → Co S R ε β) :
    (Co.raise e : Co S R ε α) >>= f = .raise e := rfl

@[simp] theorem sync_bind (u : S → S) (k : S → Co S R ε α) (f : α → Co S R ε β) :
    Co.sync u k >>= f = .sync u fun s => k s >>= f := rfl

@[simp] theorem await_bind (c : C) (k : Except ε (R c) → Co S R ε α) (f : α → Co S R ε β) :
    Co.await c k >>= f = .await c fun r => k r >>= f := rfl

theorem bind_assoc {γ : Type} (p : Co S R ε α) (f : α → Co S R ε β) (g : β → Co S R ε γ) :
    (p >>= f) >>= g = p >>= fun a => f a >>= g := by
  induction p with
  | ret a => rfl
  | raise e => rfl
  | sync u k ih => exact congrArg (Co.sync u) (funext ih)
  | await c k ih => exact congrArg (Co.await c) (funext ih)

/-! ## Exceptions -/

/-- Turns the way a computation ended back into a computation. -/
def of_except : Except ε α → Co S R ε α
  | .ok a => .ret a
  | .error e => .raise e

/-- Runs `p` and returns how it ended. -/
def attempt : Co S R ε α → Co S R ε (Except ε α)
  | .ret a => .ret (.ok a)
  | .raise e => .ret (.error e)
  | .sync u k => .sync u fun s => (k s).attempt
  | .await c k => .await c fun r => (k r).attempt

/-- `try: p  except e: h e`. -/
def try_except (p : Co S R ε α) (h : ε → Co S R ε α) : Co S R ε α := do
  match ← p.attempt with
  | .ok a => .ret a
  | .error e => h e

/-- `try: p  finally: f`. An exception of `f` replaces the outcome of `p`. -/
def try_finally (p : Co S R ε α) (f : Co S R ε Unit) : Co S R ε α := do
  let r ← p.attempt
  f
  of_except r

/-! ## The three primitive actions -/

/-- Reads the shared state. -/
def look (g : S → α) : Co S R ε α := .sync id fun s => .ret (g s)

/-- Writes the shared state. -/
def update (f : S → S) : Co S R ε Unit := .sync f fun _ => .ret ()

/-- Awaits the call `c`; an exception it ends with is raised here. -/
def call (c : C) : Co S R ε (R c) := .await c of_except

/-! ## Running up to the next suspension -/

/-- Runs the synchronous code at the front of a coroutine. -/
def settle : S → Co S R ε α → S × Co S R ε α
  | s, .sync f k => settle (f s) (k s)
  | s, .ret a => (s, .ret a)
  | s, .raise e => (s, .raise e)
  | s, .await c k => (s, .await c k)

/-- How a coroutine has ended, if it has. -/
def outcome : Co S R ε α → Option (Except ε α)
  | .ret a => some (.ok a)
  | .raise e => some (.error e)
  | _ => none

@[simp] theorem settle_ret (s : S) (a : α) :
    settle s (.ret a : Co S R ε α) = (s, .ret a) := rfl

@[simp] theorem settle_raise (s : S) (e : ε) :
    settle s (.raise e : Co S R ε α) = (s, .raise e) := rfl

@[simp] theorem settle_sync (s : S) (f : S → S) (k : S → Co S R ε α) :
    settle s (.sync f k) = settle (f s) (k s) := rfl

@[simp] theorem settle_await (s : S) (c : C) (k : Except ε (R c) → Co S R ε α) :
    settle s (.await c k) = (s, .await c k) := rfl

end Co

end Coroutine
