-- SUMMARY: What an inquiry asks for and notes, and inquiries that differ only in spare questions.
import Spreadsheet.Evaluation.Inquiry

/-!
# What inquiries ask

An inquiry answered by a fixed assignment of values to cells follows one path of its tree.
This file names what lies on that path, and relates two inquiries of which the second may
ask for additional cells that are known to be blank.
-/

namespace Spreadsheet

/-- What is answered when a cell is asked for: a value, a failure, or nothing yet. -/
abbrev Answers : Type := CellAddress → Option (Except Failure Value)

namespace Inquiry

variable {α β γ δ : Type} {answers answers' : Answers}

/-! ## Following one path -/

/-- What the inquiry comes to, nothing if it asks for a cell that has no answer yet. -/
def evaluate (answers : Answers) (q : Inquiry α) : Option (Except Failure α) :=
  q.run (m := ExceptT Failure Option) (fun _ => pure ()) answers

@[simp] theorem evaluate_done (a : α) : (done a).evaluate answers = some (.ok a) := rfl

@[simp] theorem evaluate_fail (failure : Failure) :
    (fail failure : Inquiry α).evaluate answers = some (.error failure) := rfl

@[simp] theorem evaluate_note (r : Reading) (q : Inquiry α) :
    (note r q).evaluate answers = q.evaluate answers := rfl

theorem evaluate_ask (c : CellAddress) (resume : Value → Inquiry α) :
    (ask c resume).evaluate answers =
      match answers c with
      | none => none
      | some (.error failure) => some (.error failure)
      | some (.ok v) => (resume v).evaluate answers := by
  change ExceptT.run (ExceptT.bind (ExceptT.mk (answers c)) _) = _
  cases h : answers c with
  | none => simp [ExceptT.bind, ExceptT.mk, ExceptT.run]
  | some r =>
      cases r with
      | error failure => simp [ExceptT.bind, ExceptT.bindCont, ExceptT.mk, ExceptT.run]
      | ok v => simp [ExceptT.bind, ExceptT.bindCont, ExceptT.mk, ExceptT.run, evaluate]

/-- The cells asked for, up to the first that gives no value. -/
def asked (answers : Answers) : Inquiry α → List CellAddress
  | .done _ | .fail _ => []
  | .note _ next => next.asked answers
  | .ask c resume => c :: match answers c with
    | some (.ok v) => (resume v).asked answers
    | _ => []

theorem mem_asked_ask (c : CellAddress) (resume : Value → Inquiry α) :
    c ∈ (ask c resume).asked answers := by
  simp [asked]

/-- The readings noted, up to the first question that gives no value. -/
def readings (answers : Answers) : Inquiry α → List Reading
  | .done _ | .fail _ => []
  | .note r next => r :: next.readings answers
  | .ask c resume => match answers c with
    | some (.ok v) => (resume v).readings answers
    | _ => []

/-- Only the answers to what is asked matter. -/
theorem evaluate_congr {q : Inquiry α} (h : ∀ c ∈ q.asked answers, answers' c = answers c) :
    q.evaluate answers' = q.evaluate answers ∧ q.asked answers' = q.asked answers ∧
      q.readings answers' = q.readings answers := by
  induction q with
  | done a => exact ⟨rfl, rfl, rfl⟩
  | fail failure => exact ⟨rfl, rfl, rfl⟩
  | note r next ih =>
      obtain ⟨hr, ha, hn⟩ := ih h
      exact ⟨hr, ha, congrArg (r :: ·) hn⟩
  | ask c resume ih =>
      have hc : answers' c = answers c := h c (by simp [asked])
      simp only [evaluate_ask, asked, readings, hc]
      cases hv : answers c with
      | none => exact ⟨rfl, rfl, rfl⟩
      | some r =>
          cases r with
          | error failure => exact ⟨rfl, rfl, rfl⟩
          | ok v =>
              obtain ⟨hr, ha, hn⟩ := ih v fun d hd => h d (by simp [asked, hv, hd])
              exact ⟨hr, congrArg (c :: ·) ha, hn⟩

/-- An inquiry that comes to something has an answer to all it asks. -/
theorem exists_answer {q : Inquiry α} {r : Except Failure α} (h : q.evaluate answers = some r)
    {c : CellAddress} (hc : c ∈ q.asked answers) : ∃ a, answers c = some a := by
  induction q with
  | done a => cases hc
  | fail failure => cases hc
  | note _ next ih => exact ih h hc
  | ask d resume ih =>
      rw [evaluate_ask] at h
      cases hd : answers d with
      | none => simp [hd] at h
      | some a =>
          cases a with
          | error failure =>
              simp only [asked, hd, List.mem_singleton] at hc
              exact ⟨_, hc ▸ hd⟩
          | ok v =>
              simp only [asked, hd, List.mem_cons] at h hc
              cases hc with
              | inl hc => exact ⟨_, hc ▸ hd⟩
              | inr hc => exact ih v h hc

/-! ## What an inquiry may ask for -/

/-- Whatever the answers are, only cells that `allowed` holds of are asked for. -/
def AsksOnly (allowed : CellAddress → Prop) : Inquiry α → Prop
  | .done _ | .fail _ => True
  | .note _ next => next.AsksOnly allowed
  | .ask c resume => allowed c ∧ ∀ v, (resume v).AsksOnly allowed

theorem AsksOnly.of_mem_asked {allowed : CellAddress → Prop} {q : Inquiry α}
    (h : q.AsksOnly allowed) {c : CellAddress} (hc : c ∈ q.asked answers) : allowed c := by
  induction q with
  | done a => cases hc
  | fail failure => cases hc
  | note _ next ih => exact ih h hc
  | ask d resume ih =>
      cases hd : answers d with
      | none =>
          simp only [asked, hd, List.mem_singleton] at hc
          exact hc ▸ h.1
      | some b =>
          cases b with
          | error failure =>
              simp only [asked, hd, List.mem_singleton] at hc
              exact hc ▸ h.1
          | ok v =>
              simp only [asked, hd, List.mem_cons] at hc
              cases hc with
              | inl hc => exact hc ▸ h.1
              | inr hc => exact ih v (h.2 v) hc

theorem AsksOnly.mono {allowed allowed' : CellAddress → Prop} {q : Inquiry α}
    (h : q.AsksOnly allowed) (himp : ∀ c, allowed c → allowed' c) : q.AsksOnly allowed' := by
  induction q with
  | done a => trivial
  | fail failure => trivial
  | note r next ih => exact ih h
  | ask c resume ih => exact ⟨himp c h.1, fun v => ih v (h.2 v)⟩

theorem AsksOnly.bind {allowed : CellAddress → Prop} {q : Inquiry α} {f : α → Inquiry β}
    (hq : q.AsksOnly allowed) (hf : ∀ a, (f a).AsksOnly allowed) : (q.bind f).AsksOnly allowed := by
  induction q with
  | done a => exact hf a
  | fail failure => trivial
  | note r next ih => exact ih hq
  | ask c resume ih => exact ⟨hq.1, fun v => ih v (hq.2 v)⟩

/-- Whatever the answers are, each cell asked for lies in the region of a reading that was noted
before, `noted` being those of earlier inquiries, and results have the property `post`. -/
def Announced (post : α → Prop) : (noted : List Reading) → Inquiry α → Prop
  | _, .done a => post a
  | _, .fail _ => True
  | noted, .note r next => next.Announced post (r :: noted)
  | noted, .ask c resume =>
    (∃ r ∈ noted, r.region.contains c) ∧ ∀ v, (resume v).Announced post noted

theorem Announced.bind {post : α → Prop} {post' : β → Prop} {q : Inquiry α} {f : α → Inquiry β}
    {noted : List Reading} (hq : q.Announced post noted)
    (hf : ∀ a noted, post a → (f a).Announced post' noted) : (q.bind f).Announced post' noted := by
  induction q generalizing noted with
  | done a => exact hf a noted hq
  | fail failure => trivial
  | note r next ih => exact ih hq
  | ask c resume ih => exact ⟨hq.1, fun v => ih v (hq.2 v)⟩

theorem Announced.mono {post post' : α → Prop} {q : Inquiry α} {noted noted' : List Reading}
    (hq : q.Announced post noted) (hpost : ∀ a, post a → post' a) (h : noted ⊆ noted') :
    q.Announced post' noted' := by
  induction q generalizing noted noted' with
  | done a => exact hpost a hq
  | fail failure => trivial
  | note r next ih => exact ih hq (List.cons_subset_cons r h)
  | ask c resume ih =>
      obtain ⟨⟨r, hr, hc⟩, hrest⟩ := hq
      exact ⟨⟨r, h hr, hc⟩, fun v => ih v (hrest v) h⟩

theorem announced_of_asksOnly {allowed : CellAddress → Prop} {q : Inquiry α}
    {noted : List Reading} (h : q.AsksOnly allowed)
    (hnoted : ∀ c, allowed c → ∃ r ∈ noted, r.region.contains c) :
    q.Announced (fun _ => True) noted := by
  induction q generalizing noted with
  | done a => trivial
  | fail failure => trivial
  | note r next ih =>
      refine ih h fun c hc => ?_
      obtain ⟨s, hs, hcontains⟩ := hnoted c hc
      exact ⟨s, List.mem_cons_of_mem r hs, hcontains⟩
  | ask c resume ih => exact ⟨hnoted c h.1, fun v => ih v (h.2 v) hnoted⟩

/-- A reading announces all questions about its region. -/
theorem announced_note {q : Inquiry α} {r : Reading} {noted : List Reading}
    (h : (note r q).AsksOnly fun c => r.region.contains c) :
    (note r q).Announced (fun _ => True) noted :=
  @announced_of_asksOnly _ _ q (r :: noted) h fun _ hc => ⟨r, List.mem_cons_self, hc⟩

/-- What was noted before a note is one of the readings from the note on, or was noted earlier. -/
theorem mem_readings_of_noted {r s : Reading} {noted readings : List Reading}
    (h : r ∈ s :: noted ∨ r ∈ readings) : r ∈ noted ∨ r ∈ s :: readings := by
  obtain (rfl | h) | h := h.imp_left List.mem_cons.mp
  · exact .inr List.mem_cons_self
  · exact .inl h
  · exact .inr (List.mem_cons_of_mem s h)

theorem Announced.of_mem_asked {post : α → Prop} {q : Inquiry α} {noted : List Reading}
    (h : q.Announced post noted) {c : CellAddress} (hc : c ∈ q.asked answers) :
    ∃ r, (r ∈ noted ∨ r ∈ q.readings answers) ∧ r.region.contains c := by
  induction q generalizing noted with
  | done a => cases hc
  | fail failure => cases hc
  | note s next ih =>
      obtain ⟨r, hr, hcontains⟩ := ih h hc
      exact ⟨r, mem_readings_of_noted hr, hcontains⟩
  | ask d resume ih =>
      obtain ⟨⟨r, hr, hcontains⟩, hrest⟩ := h
      simp only [asked, List.mem_cons] at hc
      obtain rfl | hc := hc
      · exact ⟨r, .inl hr, hcontains⟩
      · rw [readings]
        cases hd : answers d with
        | none => simp [hd] at hc
        | some a =>
            cases a with
            | error failure => simp [hd] at hc
            | ok v =>
                rw [hd] at hc
                exact ih v (hrest v) hc

/-! ## Spare questions -/

/-- The second inquiry notes and asks what the first one does, and may ask for spare cells in
between. What is asked for is good, and the results are related by `R`. All bets are off once
the first inquiry notes a reading that is not stable. -/
inductive Padded (good spare : CellAddress → Prop) (stable : Reading → Prop) (R : α → β → Prop) :
    Inquiry α → Inquiry β → Prop where
  | done {a : α} {b : β} : R a b → Padded good spare stable R (.done a) (.done b)
  | fail (failure : Failure) : Padded good spare stable R (.fail failure) (.fail failure)
  | note {r : Reading} {q : Inquiry α} {q' : Inquiry β} :
      Padded good spare stable R q q' → Padded good spare stable R (.note r q) (.note r q')
  | unstable {r : Reading} {q : Inquiry α} {q' : Inquiry β} :
      ¬ stable r → Padded good spare stable R (.note r q) q'
  | ask {c : CellAddress} {resume : Value → Inquiry α} {resume' : Value → Inquiry β} :
      good c → (∀ v, Padded good spare stable R (resume v) (resume' v)) →
      Padded good spare stable R (.ask c resume) (.ask c resume')
  | spare {c : CellAddress} {q : Inquiry α} {resume' : Value → Inquiry β} :
      spare c → Padded good spare stable R q (resume' .blank) →
      Padded good spare stable R q (.ask c resume')

namespace Padded

variable {good spare : CellAddress → Prop} {stable : Reading → Prop} {R : α → β → Prop}
  {S : γ → δ → Prop}

theorem bind {q : Inquiry α} {q' : Inquiry β} {f : α → Inquiry γ} {f' : β → Inquiry δ}
    (h : Padded good spare stable R q q')
    (hf : ∀ a b, R a b → Padded good spare stable S (f a) (f' b)) :
    Padded good spare stable S (q.bind f) (q'.bind f') := by
  induction h with
  | done hab => exact hf _ _ hab
  | fail failure => exact .fail failure
  | note _ ih => exact .note ih
  | unstable hr => exact .unstable hr
  | ask hc _ ih => exact .ask hc ih
  | spare hc _ ih => exact .spare hc ih

theorem mono {R' : α → β → Prop} {q : Inquiry α} {q' : Inquiry β}
    (h : Padded good spare stable R q q') (hR : ∀ a b, R a b → R' a b) :
    Padded good spare stable R' q q' := by
  induction h with
  | done hab => exact .done (hR _ _ hab)
  | fail failure => exact .fail failure
  | note _ ih => exact .note ih
  | unstable hr => exact .unstable hr
  | ask hc _ ih => exact .ask hc ih
  | spare hc _ ih => exact .spare hc ih

theorem asksOnly {q : Inquiry α} {q' : Inquiry β} (h : Padded good spare (fun _ => True) R q q') :
    q.AsksOnly good := by
  induction h with
  | done _ => trivial
  | fail _ => trivial
  | note _ ih => exact ih
  | unstable hr => exact absurd trivial hr
  | ask hc _ ih => exact ⟨hc, ih⟩
  | spare _ _ ih => exact ih

theorem refl {q : Inquiry α} (h : q.AsksOnly good) : Padded good spare stable Eq q q := by
  induction q with
  | done a => exact .done rfl
  | fail failure => exact .fail failure
  | note r next ih => exact .note (ih h)
  | ask c resume ih => exact .ask h.1 fun v => ih v (h.2 v)

/-- Without spare cells and with all readings stable, the inquiries are the same. -/
theorem eq {q q' : Inquiry α} (h : Padded good (fun _ => False) (fun _ => True) Eq q q') :
    q = q' := by
  induction h with
  | done hab => exact congrArg _ hab
  | fail failure => rfl
  | note _ ih => exact congrArg _ ih
  | unstable hr => exact absurd trivial hr
  | ask _ _ ih => exact congrArg _ (funext ih)
  | spare hc _ _ => exact hc.elim

/-- As long as the readings are stable and spare cells are blank, the second inquiry comes to
what the first one does, and asks for the same and for spare cells. -/
theorem evaluate {q q' : Inquiry α} (h : Padded good spare stable Eq q q')
    {r : Except Failure α} (hr : q.evaluate answers = some r)
    (hstable : ∀ r ∈ q.readings answers, stable r)
    (hsame : ∀ c ∈ q.asked answers, answers' c = answers c)
    (hspare : ∀ c, spare c → answers' c = some (.ok .blank)) :
    q'.evaluate answers' = some r ∧ q'.readings answers' = q.readings answers ∧
      (∀ c ∈ q.asked answers, c ∈ q'.asked answers') ∧
      ∀ c ∈ q'.asked answers', c ∈ q.asked answers ∨ spare c := by
  induction h with
  | done hab =>
      cases hab
      exact ⟨hr, rfl, fun c hc => hc, fun c hc => .inl hc⟩
  | fail failure => exact ⟨hr, rfl, fun c hc => hc, fun c hc => .inl hc⟩
  | @note note q q' _ ih =>
      obtain ⟨hq, hread, hasked, hback⟩ :=
        ih hr (fun s hs => hstable s (List.mem_cons_of_mem note hs)) hsame
      exact ⟨hq, congrArg (note :: ·) hread, hasked, hback⟩
  | unstable hunstable => exact absurd (hstable _ List.mem_cons_self) hunstable
  | @ask c resume resume' _ _ ih =>
      have hc : answers' c = answers c := hsame c (by simp [asked])
      rw [evaluate_ask] at hr
      simp only [evaluate_ask, asked, readings, hc]
      cases hv : answers c with
      | none => simp [hv] at hr
      | some a =>
          cases a with
          | error failure =>
              exact ⟨by simpa [hv] using hr, rfl, fun c hc => hc, fun c hc => .inl hc⟩
          | ok v =>
              simp only [hv, asked, readings, List.mem_cons] at hr hstable hsame ⊢
              obtain ⟨hq, hread, hasked, hback⟩ :=
                ih v hr hstable fun d hd => hsame d (.inr hd)
              refine ⟨hq, hread, fun d hd => hd.imp_right (hasked d), ?_⟩
              rintro d (rfl | hd)
              · exact .inl (.inl rfl)
              · exact (hback d hd).imp_left .inr
  -- a spare cell is blank, and the rest does not depend on that
  | @spare c q resume' hc _ ih =>
      obtain ⟨hq, hread, hasked, hback⟩ := ih hr hstable hsame
      simp only [evaluate_ask, asked, readings, hspare c hc, List.mem_cons]
      refine ⟨hq, hread, fun d hd => .inr (hasked d hd), ?_⟩
      rintro d (rfl | hd)
      · exact .inr hc
      · exact hback d hd

end Padded

end Inquiry

end Spreadsheet
