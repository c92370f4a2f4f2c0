import Mathlib.Data.List.Basic
import Vpn1.Lib.Fallible

/-! Fallible programs over an explicit state that record every labelled state they pass through,
with weakest-precondition equations and rely/guarantee rules for whole runs. -/

namespace Traced

/-- What a run leaves behind: its result, its last state, and the labelled states on the way. -/
structure Run (σ ω α : Type) where
  result : α
  final : σ
  trail : List (ω × σ)

/-- A program over states `σ` that may fail with an `ε`. Labels `ω` tell its points apart. -/
def Prog (σ ω ε α : Type) : Type := σ → Run σ ω (Except ε α)

namespace Prog

variable {σ ω ε ε' α β : Type}

protected def pure (a : α) : Prog σ ω ε α := fun s => ⟨.ok a, s, []⟩

protected def bind (p : Prog σ ω ε α) (f : α → Prog σ ω ε β) : Prog σ ω ε β := fun s =>
  match (p s).result with
  | .ok a =>
    let q := f a (p s).final
    ⟨q.result, q.final, (p s).trail ++ q.trail⟩
  | .error e => ⟨.error e, (p s).final, (p s).trail⟩

instance : Monad (Prog σ ω ε) where
  pure := Prog.pure
  bind := Prog.bind

protected theorem bind_pure (p : Prog σ ω ε α) : p >>= pure = p := by
  funext s
  show Prog.bind p Prog.pure s = p s
  cases hp : p s with
  | mk result final trail => cases result <;> simp [Prog.bind, Prog.pure, hp]

protected theorem bind_assoc {γ : Type} (p : Prog σ ω ε α) (f : α → Prog σ ω ε β)
    (g : β → Prog σ ω ε γ) : p >>= f >>= g = p >>= fun a => f a >>= g := by
  funext s
  show Prog.bind (Prog.bind p f) g s = Prog.bind p (fun a => Prog.bind (f a) g) s
  cases hp : (p s).result with
  | error e => simp [Prog.bind, hp]
  | ok a => cases hf : (f a (p s).final).result <;> simp [Prog.bind, hp, hf]

def fail (e : ε) : Prog σ ω ε α := fun s => ⟨.error e, s, []⟩

def look (f : σ → α) : Prog σ ω ε α := fun s => ⟨.ok (f s), s, []⟩

/-- Go on with an outcome that was computed apart from the state. -/
def lift (r : Except ε α) : Prog σ ω ε α := fun s => ⟨r, s, []⟩

/-- A step that changes nothing and may fail. -/
def ensure (ok : Bool) (e : ε) : Prog σ ω ε Unit := lift (if ok then .ok () else .error e)

/-- Change the state and record the point reached. -/
def move (w : ω) (f : σ → σ) : Prog σ ω ε Unit := fun s => ⟨.ok (), f s, [(w, f s)]⟩

/-- Record the current state under a label. -/
def mark (w : ω) : Prog σ ω ε Unit := move w id

/-- Run `p` and hand its outcome on as a value. -/
def attempt (p : Prog σ ω ε α) : Prog σ ω ε' (Except ε α) := fun s =>
  ⟨.ok (p s).result, (p s).final, (p s).trail⟩

/-- Run `p` and rewrite its error. -/
def mapError (f : ε → ε') (p : Prog σ ω ε α) : Prog σ ω ε' α := do
  match ← attempt p with
  | .ok a => pure a
  | .error e => fail (f e)

/-- Every state a run goes through, from its first to its last: those at which it can be killed. -/
def states (p : Prog σ ω ε α) (s : σ) : List σ :=
  s :: ((p s).trail.map Prod.snd ++ [(p s).final])

end Prog

open Prog

variable {σ ω ε ε' α β : Type}

/-- Every point of the run of `p` from `s` satisfies `G`, and its end satisfies `Q`. -/
def Wp (p : Prog σ ω ε α) (s : σ) (G : ω → σ → Prop) (Q : Except ε α → σ → Prop) : Prop :=
  (∀ x ∈ (p s).trail, G x.1 x.2) ∧ Q (p s).result (p s).final

section Equations

variable {s : σ} {G : ω → σ → Prop}

@[simp] theorem wp_pure {a : α} {Q : Except ε α → σ → Prop} :
    Wp (pure a : Prog σ ω ε α) s G Q ↔ Q (.ok a) s := by
  simp [Wp, pure, Prog.pure]

@[simp] theorem wp_fail {e : ε} {Q : Except ε α → σ → Prop} :
    Wp (fail e : Prog σ ω ε α) s G Q ↔ Q (.error e) s := by
  simp [Wp, fail]

@[simp] theorem wp_look {f : σ → α} {Q : Except ε α → σ → Prop} :
    Wp (look f : Prog σ ω ε α) s G Q ↔ Q (.ok (f s)) s := by
  simp [Wp, look]

@[simp] theorem wp_lift {r : Except ε α} {Q : Except ε α → σ → Prop} :
    Wp (lift r : Prog σ ω ε α) s G Q ↔ Q r s := by
  simp [Wp, lift]

@[simp] theorem wp_ensure {ok : Bool} {e : ε} {Q : Except ε Unit → σ → Prop} :
    Wp (ensure ok e : Prog σ ω ε Unit) s G Q ↔ if ok then Q (.ok ()) s else Q (.error e) s := by
  cases ok <;> simp [ensure]

@[simp] theorem wp_move {w : ω} {f : σ → σ} {Q : Except ε Unit → σ → Prop} :
    Wp (move w f : Prog σ ω ε Unit) s G Q ↔ G w (f s) ∧ Q (.ok ()) (f s) := by
  simp [Wp, move]

@[simp] theorem wp_mark {w : ω} {Q : Except ε Unit → σ → Prop} :
    Wp (mark w : Prog σ ω ε Unit) s G Q ↔ G w s ∧ Q (.ok ()) s := by
  simp [mark]

@[simp] theorem wp_attempt {p : Prog σ ω ε α} {Q : Except ε' (Except ε α) → σ → Prop} :
    Wp (attempt p : Prog σ ω ε' (Except ε α)) s G Q ↔ Wp p s G (fun r t => Q (.ok r) t) := by
  simp [Wp, attempt]

/-- Sequencing: what follows a success starts from the state it reached. -/
@[simp] theorem wp_bind {p : Prog σ ω ε α} {f : α → Prog σ ω ε β} {Q : Except ε β → σ → Prop} :
    Wp (p >>= f) s G Q ↔
      Wp p s G (fun r t => match r with
        | .ok a => Wp (f a) t G Q
        | .error e => Q (.error e) t) := by
  simp only [Wp, bind, Prog.bind]
  cases (p s).result with
  | error e => simp
  | ok a =>
    simp only [List.mem_append]
    constructor
    · rintro ⟨hg, hq⟩
      exact ⟨fun x hx => hg x (.inl hx), fun x hx => hg x (.inr hx), hq⟩
    · rintro ⟨hp, hf, hq⟩
      exact ⟨fun x hx => hx.elim (hp x) (hf x), hq⟩

/-- A look that is followed by a program. -/
theorem wp_look_bind {g : σ → α} {f : α → Prog σ ω ε β} {Q : Except ε β → σ → Prop} :
    Wp (look g >>= f) s G Q ↔ Wp (f (g s)) s G Q := by
  rw [wp_bind, wp_look]

@[simp] theorem wp_mapError {f : ε → ε'} {p : Prog σ ω ε α} {Q : Except ε' α → σ → Prop} :
    Wp (mapError f p : Prog σ ω ε' α) s G Q ↔
      Wp p s G (fun r t => Q (r.mapError f) t) := by
  simp only [mapError, wp_bind, wp_attempt]
  refine and_congr_right fun _ => ?_
  cases (p s).result <;> simp

end Equations

theorem Wp.mono {p : Prog σ ω ε α} {s : σ} {G G' : ω → σ → Prop}
    {Q Q' : Except ε α → σ → Prop} (h : Wp p s G Q) (hG : ∀ w t, G w t → G' w t)
    (hQ : ∀ r t, Q r t → Q' r t) : Wp p s G' Q' :=
  ⟨fun x hx => hG _ _ (h.1 x hx), hQ _ _ h.2⟩

/-- One program after another: the second starts from what the first has reached. -/
theorem Wp.bind {p : Prog σ ω ε α} {f : α → Prog σ ω ε β} {s : σ} {G : ω → σ → Prop}
    {R : Except ε α → σ → Prop} {Q : Except ε β → σ → Prop} (h : Wp p s G R)
    (hok : ∀ a t, R (.ok a) t → Wp (f a) t G Q) (herror : ∀ e t, R (.error e) t → Q (.error e) t) :
    Wp (p >>= f) s G Q := by
  rw [wp_bind]
  refine h.mono (fun _ _ hw => hw) fun r t hr => ?_
  cases r with
  | ok a => exact hok a t hr
  | error e => exact herror e t hr

/-- A check that is followed by a program. -/
theorem wp_ensure_bind {ok : Bool} {e : ε} {f : Unit → Prog σ ω ε β} {s : σ} {G : ω → σ → Prop}
    {Q : Except ε β → σ → Prop} (herror : ok = false → Q (.error e) s)
    (hok : ok = true → Wp (f ()) s G Q) : Wp (ensure ok e >>= f) s G Q := by
  rw [wp_bind, wp_ensure]
  cases ok with
  | false => exact herror rfl
  | true => exact hok rfl

/-- The first program does not fail. -/
theorem Wp.bind_of_ok {p : Prog σ ω ε α} {f : α → Prog σ ω ε β} {s : σ} {G : ω → σ → Prop} {a : α}
    {P : σ → Prop} {Q : Except ε β → σ → Prop} (h : Wp p s G (fun r t => r = .ok a ∧ P t))
    (hok : ∀ t, P t → Wp (f a) t G Q) : Wp (p >>= f) s G Q := by
  apply h.bind
  · rintro b t ⟨hb, ht⟩
    cases hb
    exact hok t ht
  · rintro e t ⟨he, -⟩
    cases he

/-- A property of the first state, of every point and of the last state holds throughout. -/
theorem Wp.of_mem_states {p : Prog σ ω ε α} {s t : σ} {G : σ → Prop} {Q : Except ε α → σ → Prop}
    (h : Wp p s (fun _ => G) Q) (hs : G s) (hQ : ∀ r u, Q r u → G u) (ht : t ∈ p.states s) :
    G t := by
  simp only [Prog.states, List.mem_cons, List.mem_append, List.mem_map, List.not_mem_nil,
    or_false] at ht
  rcases ht with rfl | ⟨x, hx, rfl⟩ | rfl
  · exact hs
  · exact h.1 x hx
  · exact hQ _ _ h.2

theorem final_mem_states (p : Prog σ ω ε α) (s : σ) : (p s).final ∈ p.states s := by
  simp [Prog.states]

/-- If every point of the run satisfies the rely `R`, every point satisfies `G` and the end `Q`. -/
def Sat (R : ω → σ → Prop) (p : Prog σ ω ε α) (s : σ) (G : ω → σ → Prop)
    (Q : Except ε α → σ → Prop) : Prop :=
  (∀ x ∈ (p s).trail, R x.1 x.2) → Wp p s G Q

theorem Sat.bind {R G : ω → σ → Prop} {p : Prog σ ω ε α} {f : α → Prog σ ω ε β} {s : σ}
    {Q : Except ε β → σ → Prop}
    (h : Sat R p s G (fun r t => match r with
      | .ok a => Sat R (f a) t G Q
      | .error e => Q (.error e) t)) : Sat R (p >>= f) s G Q := by
  intro hR
  rw [wp_bind]
  simp only [Bind.bind, Prog.bind] at hR
  cases hr : (p s).result with
  | error e =>
    rw [hr] at hR
    have hp := h hR
    exact ⟨hp.1, by simpa [hr] using hp.2⟩
  | ok a =>
    rw [hr] at hR
    simp only [List.mem_append] at hR
    have hp := h fun x hx => hR x (.inl hx)
    have hf : Sat R (f a) (p s).final G Q := by simpa [hr] using hp.2
    exact ⟨hp.1, by simpa [hr] using hf fun x hx => hR x (.inr hx)⟩

theorem mem_trail_mark (w : ω) (f : Unit → Prog σ ω ε α) (s : σ) :
    (w, s) ∈ ((mark w >>= f) s).trail := by
  simp [Bind.bind, Prog.bind, mark, move]

/-- `p` keeps the invariant `I` and its points satisfy `G`, as long as they satisfy the rely `R`. -/
def Keeps (R : ω → σ → Prop) (I : σ → Prop) (G : ω → σ → Prop) (p : Prog σ ω ε α) : Prop :=
  ∀ s, I s → Sat R p s G (fun _ t => I t)

namespace Keeps

variable {R G : ω → σ → Prop} {I : σ → Prop}

theorem of_wp {p : Prog σ ω ε α} (h : ∀ s, I s → Wp p s G (fun _ t => I t)) : Keeps R I G p :=
  fun s hs _ => h s hs

theorem pure (a : α) : Keeps R I G (Pure.pure a : Prog σ ω ε α) :=
  of_wp fun _ hs => wp_pure.mpr hs

theorem fail (e : ε) : Keeps R I G (Prog.fail e : Prog σ ω ε α) :=
  of_wp fun _ hs => wp_fail.mpr hs

theorem look (f : σ → α) : Keeps R I G (Prog.look f : Prog σ ω ε α) :=
  of_wp fun _ hs => wp_look.mpr hs

theorem move {w : ω} {f : σ → σ} (h : ∀ s, I s → G w (f s) ∧ I (f s)) :
    Keeps R I G (Prog.move w f : Prog σ ω ε Unit) :=
  of_wp fun s hs => wp_move.mpr (h s hs)

/-- What follows a look starts from a state with the value it saw. -/
theorem look_bind {g : σ → α} {f : α → Prog σ ω ε β} (h : ∀ s, I s → Keeps R I G (f (g s))) :
    Keeps R I G (Prog.look g >>= f) :=
  fun s hs => Sat.bind fun _ => wp_look.mpr (h s hs s hs)

/-- What follows may use what is known of the values it is handed. -/
theorem bind_ok {P : α → Prop} {p : Prog σ ω ε α} {f : α → Prog σ ω ε β}
    (hp : ∀ s, I s → Sat R p s G (fun r t => I t ∧ ∀ a, r = .ok a → P a))
    (hf : ∀ a, P a → Keeps R I G (f a)) : Keeps R I G (p >>= f) := by
  intro s hs
  refine Sat.bind fun hR => (hp s hs hR).mono (fun _ _ hw => hw) fun r t ht => ?_
  cases r with
  | ok a => exact hf a (ht.2 a rfl) t ht.1
  | error e => exact ht.1

theorem bind {p : Prog σ ω ε α} {f : α → Prog σ ω ε β} (hp : Keeps R I G p)
    (hf : ∀ a, Keeps R I G (f a)) : Keeps R I G (p >>= f) := by
  refine bind_ok (P := fun _ => True) (fun s hs hR => ?_) fun a _ => hf a
  exact (hp s hs hR).mono (fun _ _ hw => hw) fun _ _ ht => ⟨ht, fun _ _ => trivial⟩

theorem attempt {p : Prog σ ω ε α} (hp : Keeps R I G p) :
    Keeps R I G (Prog.attempt p : Prog σ ω ε' (Except ε α)) :=
  fun s hs hR => wp_attempt.mpr (hp s hs hR)

theorem mapError {p : Prog σ ω ε α} (f : ε → ε') (hp : Keeps R I G p) :
    Keeps R I G (Prog.mapError f p) := by
  refine hp.attempt.bind fun r => ?_
  cases r with
  | ok a => exact pure a
  | error e => exact fail (f e)

end Keeps

section Projection

variable {τ υ γ δ : Type}

/-- From `s` on `p` does what `q` does from what `π` shows of `s`; `v` is what `p` keeps of the
value that `q` returns. -/
structure Projects (π : σ → τ) (v : β → α) (p : Prog σ ω ε α) (q : Prog τ υ ε β) (s : σ) :
    Prop where
  result : (p s).result = (q (π s)).result.map v
  final : π (p s).final = (q (π s)).final

namespace Projects

variable {π : σ → τ} {u : δ → γ} {v : β → α} {s : σ}

theorem pure (b : β) : Projects π v (Pure.pure (v b) : Prog σ ω ε α) (Pure.pure b : Prog τ υ ε β) s :=
  ⟨rfl, rfl⟩

theorem fail (e : ε) : Projects π v (Prog.fail e : Prog σ ω ε α) (Prog.fail e : Prog τ υ ε β) s :=
  ⟨rfl, rfl⟩

theorem look_left {g : σ → γ} {f : γ → Prog σ ω ε α} {q : Prog τ υ ε β}
    (h : Projects π v (f (g s)) q s) : Projects π v (Prog.look g >>= f) q s :=
  ⟨h.result, h.final⟩

theorem look_right {p : Prog σ ω ε α} {g : τ → γ} {f : γ → Prog τ υ ε β}
    (h : Projects π v p (f (g (π s))) s) : Projects π v p (Prog.look g >>= f) s :=
  ⟨h.result, h.final⟩

theorem pure_right {p : Prog σ ω ε α} {c : γ} {f : γ → Prog τ υ ε β} (h : Projects π v p (f c) s) :
    Projects π v p (Pure.pure c >>= f) s :=
  ⟨h.result, h.final⟩

theorem lift_right {p : Prog σ ω ε α} {c : γ} {f : γ → Prog τ υ ε β} (h : Projects π v p (f c) s) :
    Projects π v p (Prog.lift (.ok c) >>= f) s :=
  ⟨h.result, h.final⟩

theorem bind {p : Prog σ ω ε γ} {q : Prog τ υ ε δ} {f : γ → Prog σ ω ε α} {g : δ → Prog τ υ ε β}
    (h : Projects π u p q s)
    (hok : ∀ d, (q (π s)).result = .ok d → Projects π v (f (u d)) (g d) (p s).final) :
    Projects π v (p >>= f) (q >>= g) s := by
  obtain ⟨hresult, hfinal⟩ := h
  cases hq : (q (π s)).result with
  | error e =>
    rw [hq] at hresult
    constructor
    · simp [Bind.bind, Prog.bind, hresult, hq, Except.map]
    · simpa [Bind.bind, Prog.bind, hresult, hq, Except.map] using hfinal
  | ok d =>
    rw [hq] at hresult
    obtain ⟨hresult', hfinal'⟩ := hok d hq
    rw [hfinal] at hresult' hfinal'
    constructor
    · simpa [Bind.bind, Prog.bind, hresult, hq, Except.map] using hresult'
    · simpa [Bind.bind, Prog.bind, hresult, hq, Except.map] using hfinal'

/-- A value that is returned afterwards, and that `v` drops. -/
theorem then_pure {p : Prog σ ω ε α} {q : Prog τ υ ε δ} {u : δ → α} {b : β}
    (h : Projects π u p q s) (hv : ∀ d, u d = v b) :
    Projects π v p (q >>= fun _ => Pure.pure b) s := by
  rw [← Prog.bind_pure p]
  refine h.bind fun d _ => ?_
  rw [hv d]
  exact pure b

end Projects

end Projection

end Traced
