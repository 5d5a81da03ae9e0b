import NetOrchestrator.Lib.Loops

/-!
# `Lib.Frames`: what a program leaves alone

`R s s'` says that the part of the state which somebody cares about is the same in both. A program
preserves `R` if it keeps every invariant that depends on that part only, wherever it is cut off.
The rules say it of a program from its primitive steps, so that an invariant about one part of the
state needs no more than one fact about each step which touches that part. `Quietly` says it of a
program that reports no error.
-/

namespace NetOrchestrator.Lib.Call

open Verdict

variable {σ φ ε α β : Type}

/-- The invariant depends only on what `R` fixes. -/
def Respects (R : σ → σ → Prop) (I : σ → Prop) : Prop := ∀ s s', R s s' → I s → I s'

/-- `R'` fixes no more than `R`. A rule for steps that fix `R` serves every such `R'`. -/
class Coarser (R R' : σ → σ → Prop) : Prop where
  le : ∀ {s s'}, R s s' → R' s s'

instance {R : σ → σ → Prop} : Coarser R R := ⟨id⟩

/-- `m` keeps every invariant that depends only on what `R` fixes. -/
def Preserves (R : σ → σ → Prop) (m : Call σ φ ε α) : Prop :=
  ∀ I : σ → Prop, Respects R I → Keeps Verdict.Any I m

namespace Preserves
variable {R : σ → σ → Prop} {m : Call σ φ ε α}
variable {I : σ → Prop}

theorem keeps (h : Preserves R m) (hI : Respects R I) : Keeps Any I m := h I hI

/-- Where an invariant holds and what comes after needs nothing else. -/
theorem wp (h : Preserves R m) (hI : Respects R I) {s : σ} (hs : I s)
    {Q : α → σ → Prop} {E : ε → σ → Prop} {C : σ → Prop} (hQ : ∀ a s, I s → Q a s)
    (hE : ∀ e s, I s → E e s) (hC : ∀ s, I s → C s) : Call.wp Any m Q E C s :=
  wp_mono (h I hI s hs) hQ hE hC

theorem pure (a : α) : Preserves R (pure a : Call σ φ ε α) := fun _ _ => Keeps.pure a

theorem throw (e : ε) : Preserves R (throw e : Call σ φ ε α) := fun _ _ => Keeps.throw e

theorem gets (f : σ → α) : Preserves R (gets f : Call σ φ ε α) := fun _ _ => Keeps.gets f

theorem ofExcept (x : Except ε α) : Preserves R (ofExcept x : Call σ φ ε α) :=
  fun _ _ => Keeps.ofExcept x

theorem bind {f : α → Call σ φ ε β} (hm : Preserves R m) (hf : ∀ a, Preserves R (f a)) :
    Preserves R (m >>= f) :=
  fun I hI => Keeps.bind (hm I hI) fun a => hf a I hI

theorem attempt (hm : Preserves R m) : Preserves R (attempt m) :=
  fun I hI => Keeps.attempt (hm I hI)

/-- A program goes on from either answer. -/
theorem either {f : Except ε α → Call σ φ ε β} (hm : Preserves R m)
    (hok : ∀ a, Preserves R (f (.ok a))) (herr : ∀ e, Preserves R (f (.error e))) :
    Preserves R (Call.attempt m >>= f) :=
  fun I hI => (hm I hI).either (fun a => hok a I hI) fun e => herr e I hI

theorem step {report : φ → ε} {act : σ → Except ε α × σ} (hact : ∀ s, R s (act s).2) :
    Preserves R (step report act) :=
  fun _ hI => Keeps.step fun s hs => hI s _ (hact s) hs

theorem ite {c : Prop} [Decidable c] {n : Call σ φ ε α} (hm : Preserves R m)
    (hn : Preserves R n) : Preserves R (if c then m else n) :=
  fun I hI => Keeps.ite (hm I hI) (hn I hI)

theorem forEach {body : α → Call σ φ ε Unit} (h : ∀ a, Preserves R (body a)) (l : List α) :
    Preserves R (forEach body l) :=
  fun I hI => Keeps.forEach (fun a => h a I hI) l

end Preserves

/-- `m` keeps all of them and reports no error. -/
def Quietly (R : σ → σ → Prop) (m : Call σ φ ε α) : Prop :=
  ∀ I : σ → Prop, Respects R I → ∀ s, I s →
    Call.wp Verdict.Any m (fun _ => I) (fun _ _ => False) I s

namespace Quietly
variable {R : σ → σ → Prop} {m : Call σ φ ε α}

theorem pure (a : α) : Quietly R (pure a : Call σ φ ε α) := fun _ _ _ h => wp_pure h

theorem modify {f : σ → σ} (hf : ∀ s, R s (f s)) : Quietly R (modify f : Call σ φ ε Unit) :=
  fun _ hI s h => wp_modify (hI s _ (hf s) h)

theorem bind {f : α → Call σ φ ε β} (hm : Quietly R m) (hf : ∀ a, Quietly R (f a)) :
    Quietly R (m >>= f) :=
  fun I hI s h => wp_bind (wp_post (hm I hI s h) fun a s' hs => hf a I hI s' hs)

/-- Both answers of an attempt are looked at. -/
theorem either {f : Except ε α → Call σ φ ε β} (hm : Preserves R m)
    (hok : ∀ a, Quietly R (f (.ok a))) (herr : ∀ e, Quietly R (f (.error e))) :
    Quietly R (Call.attempt m >>= f) :=
  fun I hI s h => wp_either (hm.keeps hI s h) (fun a s' hs => hok a I hI s' hs)
    fun e s' hs => herr e I hI s' hs

/-- Whoever does not mind errors. -/
theorem preserves (hm : Quietly R m) : Preserves R m :=
  fun I hI s h => wp_sure (hm I hI s h) fun _ _ hi => hi

end Quietly

end NetOrchestrator.Lib.Call
