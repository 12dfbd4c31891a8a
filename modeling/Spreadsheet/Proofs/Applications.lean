-- SUMMARY: Which operators an expression applies to which values, given what cells answer.
import Spreadsheet.Proofs.Standards

/-!
# Applications of operators

A trail lists the cells that an inquiry asks for and what each of them answers. Along a trail an
inquiry comes to one thing at most, and the trail of a bind is the trail of its first part followed
by that of the second. So a trail tells which parts of an expression are evaluated, what they come
to, and which operators are applied to what.
-/

namespace Spreadsheet

/-- Cells in the order they are asked for, and what they answer. -/
abbrev Trail : Type := List (CellAddress × Value)

namespace Inquiry

variable {α β : Type} {q : Inquiry α} {trail : Trail} {a : α} {b : β}

/-- Asking for the cells of the trail and getting its answers, the inquiry comes to a result. -/
inductive Gives : Inquiry α → Trail → α → Prop where
  | done (a : α) : Gives (.done a) [] a
  | note {r : Reading} {next : Inquiry α} {trail : Trail} {a : α} :
      Gives next trail a → Gives (.note r next) trail a
  | ask {c : CellAddress} {resume : Value → Inquiry α} {v : Value} {trail : Trail} {a : α} :
      Gives (resume v) trail a → Gives (.ask c resume) ((c, v) :: trail) a

/-- The trail of a bind is that of the first inquiry and then that of the second. -/
theorem Gives.of_bind {f : α → Inquiry β} (h : (q.bind f).Gives trail b) :
    ∃ before rest a, trail = before ++ rest ∧ q.Gives before a ∧ (f a).Gives rest b := by
  induction q generalizing trail with
  | done a => exact ⟨[], trail, a, rfl, .done a, h⟩
  | fail failure => cases h
  | note r next ih =>
      cases h with
      | note h =>
          obtain ⟨before, rest, a, rfl, hq, hf⟩ := ih h
          exact ⟨before, rest, a, rfl, .note hq, hf⟩
  | ask c resume ih =>
      cases h with
      | @ask _ _ v _ _ h =>
          obtain ⟨before, rest, a, rfl, hq, hf⟩ := ih v h
          exact ⟨(c, v) :: before, rest, a, rfl, .ask hq, hf⟩

theorem Gives.of_done {a' : α} (h : (Inquiry.done a).Gives trail a') : trail = [] ∧ a' = a := by
  cases h
  exact ⟨rfl, rfl⟩

/-- If all answers fit, what the inquiry comes to along a trail has the property. -/
theorem Meets.of_gives {contract : Contract} {post : α → Prop} (hq : q.Meets contract post)
    (hfits : ∀ c v, contract.fits c v) (h : q.Gives trail a) : post a := by
  induction h with
  | done a => exact hq
  | note _ ih => exact ih hq.2
  | ask _ ih => exact ih (hq.2 _ (hfits _ _))

end Inquiry

/-- A run of an inquiry that comes to a value follows the trail of what it asks for. -/
theorem Runs.exists_trail {engine : Engine} {depth : Nat} {chain : List CellAddress}
    {reader : Option CellAddress} {q : Inquiry Value} {m m' : Memory} {v : Value} {log : Log}
    (h : Runs engine (.inquiry depth chain reader q) m (.ok v) m' log) :
    ∃ trail : Trail, trail.map Prod.fst = log.asked ∧ q.Gives trail v := by
  generalize htask : Task.inquiry depth chain reader q = task at h
  generalize hs : (.ok v : Except Failure Value) = s at h
  induction h generalizing q with
  | circle _ | settled _ _ | remembered _ _ | tooDeep _ _ _ | computed _ _ _ _ | failed _ _ _ _ =>
      cases htask
  | done =>
      cases htask
      cases hs
      exact ⟨[], rfl, .done _⟩
  | fail => cases hs
  | note _ ih =>
      cases htask
      obtain ⟨trail, hasked, hgives⟩ := ih rfl hs
      exact ⟨trail, hasked, .note hgives⟩
  | @asked _ _ _ _ _ _ c _ w _ _ _ _ _ _ ih =>
      cases htask
      obtain ⟨trail, hasked, hgives⟩ := ih rfl hs
      exact ⟨(c, w) :: trail, congrArg (c :: ·) hasked, .ask hgives⟩
  | askFailed _ _ => cases hs

/-- The reply to a query is what its inquiry comes to along a trail. -/
theorem Evaluator.reply_gives {ev : Evaluator} (hm : ev.FormulasRead ev.memory) {query : Query}
    {v : Value} (hv : (ev.reply query).1 = .ok v) :
    ∃ q trail, query.inquiry ev.toEngine = .ok q ∧ q.Gives trail v := by
  cases hq : query.inquiry ev.toEngine with
  | error failure =>
      obtain ⟨formulas, hreply, -, -⟩ := reply_error hm hq
      rw [hreply] at hv
      cases hv
  | ok q =>
      obtain ⟨formulas, s, m', log, hreply, hruns, -, -⟩ := reply_runs hm hq
      rw [hreply] at hv
      obtain rfl : s = .ok v := hv
      obtain ⟨trail, -, hgives⟩ := hruns.exists_trail
      exact ⟨q, trail, rfl, hgives⟩

/-! ## Calls -/

/-- With these arguments, the function asks for one that was left unevaluated. -/
def Function.Forces (f : Function) (site : Site) (args : List Argument) (index : Nat) : Prop :=
  ∃ g resume, f.implementation = .contextual g ∧ g site args = .force index resume ∧
    args[index]? = some .lazy

/-- A call does not depend on what was left unevaluated but for the argument it asks for. -/
theorem Function.call_cases (f : Function) (site : Site) (args : List Argument)
    (expression : Nat → Inquiry Value) :
    f.call site args expression = f.call site args (fun _ => .done .blank) ∨
      ∃ index, f.Forces site args index ∧ f.call site args expression =
        (expression index).bind fun v => f.call site args fun _ => .done v := by
  unfold call
  split
  · exact .inl rfl
  · rename_i g hg
    split
    · exact .inl rfl
    · rename_i index resume hforce
      by_cases hlazy : args[index]? = some .lazy
      · refine .inr ⟨index, ⟨g, resume, hg, hforce, hlazy⟩, ?_⟩
        rw [hlazy]
        rfl
      · refine .inl (congrArg (Inquiry.bind · _) ?_)
        unfold Argument.forced
        split
        · exact absurd ‹_› hlazy
        · rfl
        · rfl
  · exact .inl rfl
  · exact .inl rfl

/-- An argument that is evaluated is evaluated before it is converted. -/
theorem Site.prepare_eq_bind (site : Site) {kind : ParamKind} (hkind : kind ≠ .lazy)
    (operand : Unit → Inquiry Operand) :
    site.prepare kind operand = (operand ()).bind fun o => site.prepare kind fun _ => .done o := by
  cases kind with
  | lazy => exact absurd rfl hkind
  | _ => rfl

/-! ## Applications -/

namespace Formula.Expr

variable (registry : Registry) (site : Site)

mutual

/-- With the answers of the trail, which may go on, evaluating the expression applies the operator
to two values. -/
inductive Applies : Expr → Trail → BinaryOp → Value → Value → Prop where
  | here {op : BinaryOp} {l r : Expr} {t t' rest : Trail} {v w : Value} :
      op ≠ .range → (l.value registry site).Gives t v → (r.value registry site).Gives t' w →
      Applies (.binary op l r) (t ++ (t' ++ rest)) op v w
  | operand {sign : UnaryOp} {e : Expr} {t : Trail} {op : BinaryOp} {v w : Value} :
      Applies e t op v w → Applies (.unary sign e) t op v w
  | left {op' : BinaryOp} {l r : Expr} {t : Trail} {op : BinaryOp} {v w : Value} :
      Applies l t op v w → Applies (.binary op' l r) t op v w
  | right {op' : BinaryOp} {l r : Expr} {t t' : Trail} {u : Value} {op : BinaryOp} {v w : Value} :
      op' ≠ .range → (l.value registry site).Gives t u → Applies r t' op v w →
      Applies (.binary op' l r) (t ++ t') op v w
  | corner {l r : Expr} {t t' : Trail} {o : Operand} {op : BinaryOp} {v w : Value} :
      (l.operand registry site).Gives t o → Applies r t' op v w →
      Applies (.binary .range l r) (t ++ t') op v w
  | item {items : List Expr} {t : Trail} {op : BinaryOp} {v w : Value} :
      AppliesItem items t op v w → Applies (.union items) t op v w
  | argument {function : String} {f : Function} {es : List Expr} {t : Trail} {op : BinaryOp}
      {v w : Value} : registry.get? function = some f → AppliesArgument f 0 es t op v w →
      Applies (.call function es) t op v w
  | forced {function : String} {f : Function} {es : List Expr} {t t' : Trail}
      {args : List Argument} {index : Nat} {e : Expr} {op : BinaryOp} {v w : Value} :
      registry.get? function = some f → (argumentsOf registry site f 0 es).Gives t (.ok args) →
      f.Forces site args index → es[index]? = some e → Applies e t' op v w →
      Applies (.call function es) (t ++ t') op v w

/-- An operator is applied in one of several expressions, those before it giving references. -/
inductive AppliesItem : List Expr → Trail → BinaryOp → Value → Value → Prop where
  | head {e : Expr} {es : List Expr} {t : Trail} {op : BinaryOp} {v w : Value} :
      Applies e t op v w → AppliesItem (e :: es) t op v w
  | tail {e : Expr} {es : List Expr} {t t' : Trail} {r : Reference} {op : BinaryOp} {v w : Value} :
      (e.operand registry site).Gives t (.reference r) → AppliesItem es t' op v w →
      AppliesItem (e :: es) (t ++ t') op v w

/-- An operator is applied in an argument that is evaluated, those before it being prepared. -/
inductive AppliesArgument :
    Function → Nat → List Expr → Trail → BinaryOp → Value → Value → Prop where
  | head {f : Function} {index : Nat} {e : Expr} {es : List Expr} {t : Trail} {op : BinaryOp}
      {v w : Value} : f.paramKind index ≠ .lazy → Applies e t op v w →
      AppliesArgument f index (e :: es) t op v w
  | tail {f : Function} {index : Nat} {e : Expr} {es : List Expr} {t t' : Trail} {arg : Argument}
      {op : BinaryOp} {v w : Value} :
      (site.prepare (f.paramKind index) fun _ => e.operand registry site).Gives t (.ok arg) →
      AppliesArgument f (index + 1) es t' op v w →
      AppliesArgument f index (e :: es) (t ++ t') op v w

end

end Formula.Expr

end Spreadsheet
