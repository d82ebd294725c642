import QuicWestwood.Outcome

/-! `Ends x E Q`: the computation returns a value with `Q` or fails with an error in `E`. A sweep goes through a
list once, carrying a state; each element is kept, changed or erased. Its rules say what a sweep keeps and when
it fails, element by element. -/
namespace QuicWestwood
open List

variable {ε σ α β : Type}

def Ends (x : Except ε α) (E : ε → Prop) (Q : α → Prop) : Prop :=
  match x with
  | .ok a => Q a
  | .error e => E e

namespace Ends
variable {E E' : ε → Prop} {P Q : α → Prop}

@[simp] lemma ok_iff (a : α) : Ends (.ok a : Except ε α) E Q ↔ Q a := Iff.rfl

variable {x : Except ε α}

lemma mono (h : Ends x E P) (hE : ∀ e,E e → E' e) (hQ : ∀ a,P a → Q a) : Ends x E' Q := by
  cases x with
  | error e => exact hE e h
  | ok a => exact hQ a h

lemma imp (h : Ends x E P) (hQ : ∀ a,P a → Q a) : Ends x E Q :=
  h.mono (fun _ => id) hQ

lemma and (h : Ends x E P) (h' : Ends x E' Q) : Ends x (fun e => E e ∧ E' e) fun a => P a ∧ Q a := by
  cases x with
  | error e => exact ⟨h,h'⟩
  | ok a => exact ⟨h,h'⟩

lemma bind {f : α → Except ε β} {R : β → Prop} (h : Ends x E P) (hf : ∀ a,P a → Ends (f a) E R) :
    Ends (x >>= f) E R := by
  cases x with
  | error e => exact h
  | ok a => exact hf a h

lemma map {f : α → β} {R : β → Prop} (h : Ends x E fun a => R (f a)) : Ends (f <$> x) E R := by
  cases x with
  | error e => exact h
  | ok a => exact h

lemma of_eq_ok {a : α} (h : Ends x E Q) (hx : x = .ok a) : Q a := by
  rwa [hx] at h

lemma of_eq_error {e : ε} (h : Ends x E Q) (hx : x = .error e) : E e := by
  rwa [hx] at h

lemma with_eq (h : Ends x E Q) : Ends x E fun a => Q a ∧ x = .ok a := by
  cases x with
  | error e => exact h
  | ok a => exact ⟨h,rfl⟩

lemma of_forall (hok : ∀ a,x = .ok a → Q a) (herror : ∀ e,x = .error e → E e) : Ends x E Q := by
  cases x with
  | error e => exact herror e rfl
  | ok a => exact hok a rfl

end Ends

lemma ends_toExcept {ε σ : Type} {o : Outcome ε σ} {E : ε → Prop} {Q : σ → Prop}
    (hthrown : ∀ e,o.thrown = some e → E e) (hstate : o.thrown=none → Q o.state) :
    Ends o.toExcept E Q := by
  unfold Outcome.toExcept
  cases h : o.thrown with
  | none => exact hstate h
  | some e => exact hthrown e h

def runFallible (step : σ → α → Except ε σ) : σ → List α → Except ε σ
  | s, [] => .ok s
  | s, a::as => step s a >>= fun s' => runFallible step s' as

variable {s : σ} {as : List α}

theorem ends_runFallible {step : σ → α → Except ε σ} {E : ε → Prop} {P : σ → Prop} (hs : P s)
    (hstep : ∀ t,P t → ∀ a ∈ as,Ends (step t a) E P) : Ends (runFallible step s as) E P := by
  induction as generalizing s with
  | nil => exact hs
  | cons a as ih =>
    refine (hstep s hs a (by simp)).bind fun t ht => ?_
    exact ih ht fun u hu b hb => hstep u hu b (by simp [hb])

lemma runFallible_append (step : σ → α → Except ε σ) (s : σ) (as bs : List α) :
    runFallible step s (as++bs) = runFallible step s as >>= fun t => runFallible step t bs := by
  induction as generalizing s with
  | nil => rfl
  | cons a as ih =>
    rw [cons_append,runFallible,runFallible]
    cases step s a with
    | error e => rfl
    | ok t => exact ih t

/-- Every element is replaced by a list: itself, a changed copy, or nothing. -/
def sweep (f : σ → α → Except ε (σ × List α)) : σ → List α → Except ε (σ × List α)
  | s, [] => .ok (s,[])
  | s, a::as => do
    let r ← f s a
    let rest ← sweep f r.1 as
    return (rest.1,r.2++rest.2)

section Sweep
variable {f : σ → α → Except ε (σ × List α)} {E : ε → Prop}
variable {I : σ → List α → Prop}

/-- Invariant rule. The invariant sees the state and the whole list as it stands, `rest` is
the part not yet swept; besides, every element is related to its replacement. -/
theorem ends_sweep_replacing {R : α → List α → Prop} {pre as post : List α}
    (hf : ∀ s pre a rest,a::rest <:+ as → I s (pre++(a::(rest++post))) →
      Ends (f s a) E fun r => I r.1 (pre++(r.2++(rest++post))) ∧ R a r.2)
    (h : I s (pre++(as++post))) : Ends (sweep f s as) E fun r =>
      I r.1 (pre++(r.2++post)) ∧ ∃ outs,Forall₂ R as outs ∧ r.2=outs.flatten := by
  induction as generalizing s pre with
  | nil => exact ⟨h,[],.nil,rfl⟩
  | cons a as ih =>
    refine (hf s pre a as suffix_rfl h).bind fun r hr => ?_
    obtain ⟨hI,hR⟩ := hr
    rw [← append_assoc] at hI
    refine (ih (fun s pre b rest hb => hf s pre b rest (hb.trans (suffix_cons a as))) hI).bind ?_
    rintro rest ⟨hrest,outs,hall,houts⟩
    refine ⟨?_,r.2::outs,.cons hR hall,by rw [flatten_cons,houts]⟩
    change I rest.1 (pre++(r.2++rest.2++post))
    rwa [append_assoc,← append_assoc pre]

theorem ends_sweep_flatMap {g : α → List α} (hf : ∀ s pre a rest,a::rest <:+ as → I s (pre++a::rest) →
      Ends (f s a) E fun r => I r.1 (pre++(r.2++rest)) ∧ r.2 = g a) (h : I s as) :
    Ends (sweep f s as) E fun r => I r.1 r.2 ∧ r.2 = as.flatMap g := by
  have hsweep : Ends (sweep f s as) E fun r => I r.1 ([]++(r.2++[])) ∧
      ∃ outs,Forall₂ (fun a out => out = g a) as outs ∧ r.2=outs.flatten :=
    ends_sweep_replacing (fun s pre a rest ha => by simpa using hf s pre a rest ha) (by simpa using h)
  refine hsweep.imp ?_
  rintro r ⟨hI,outs,hall,hr⟩
  refine ⟨by simpa using hI,?_⟩
  have houts := forall₂_map_left_iff.mpr (hall.imp fun _ _ ha => ha.symm)
  rw [forall₂_eq_eq_eq] at houts
  rw [hr,← houts,flatMap_def]

lemma flatMap_erase (g : α → Bool) (l : List α) :
    (l.flatMap fun a => if g a then [] else [a]) = l.filter fun a => !g a := by
  induction l with
  | nil => rfl
  | cons a l ih => cases hg : g a <;> simp [hg,ih]

lemma exists_of_mem_forall₂ {R : α → β → Prop} {bs : List β} (h : Forall₂ R as bs) :
    ∀ b ∈ bs,∃ a ∈ as,R a b := by
  induction h with
  | nil => simp
  | cons hR _ ih =>
    intro b hb
    rcases mem_cons.mp hb with rfl | hb
    · exact ⟨_,mem_cons_self,hR⟩
    · obtain ⟨a,ha,hab⟩ := ih b hb
      exact ⟨a,mem_cons_of_mem _ ha,hab⟩

lemma forall₂_flatten {R : α → β → Prop} {outs : List (List β)}
    (h : Forall₂ (fun a out => ∃ b,out = [b] ∧ R a b) as outs) : Forall₂ R as outs.flatten := by
  induction h with
  | nil => exact .nil
  | cons ha _ ih =>
    obtain ⟨b,rfl,hR⟩ := ha
    exact .cons hR ih

/-- A sweep whose output is known element by element; the invariant sees the elements
already visited and those to come. -/
theorem ends_sweep_map {J : σ → List α → List α → Prop} {g : α → α}
    (hf : ∀ s done a rest,a::rest <:+ as → J s done (a::rest) →
      Ends (f s a) E fun r => r.2 = [g a] ∧ J r.1 (done++[a]) rest) (h : J s [] as) :
    Ends (sweep f s as) E fun r => r.2 = as.map g ∧ J r.1 as [] := by
  suffices hall : ∀ rest,rest <:+ as → ∀ s done,J s done rest →
      Ends (sweep f s rest) E fun r => r.2 = rest.map g ∧ J r.1 (done++rest) [] by
    simpa using hall as (suffix_refl as) s [] h
  intro rest
  induction rest with
  | nil => exact fun _ s done hJ => ⟨rfl,by simpa using hJ⟩
  | cons a rest ih =>
    intro hsuffix s done hJ
    refine (hf s done a rest hsuffix hJ).bind ?_
    rintro r ⟨hr,hJ'⟩
    refine (ih ((suffix_cons a rest).trans hsuffix) r.1 (done++[a]) hJ').bind ?_
    rintro r' ⟨hr',hJ''⟩
    refine ⟨?_,?_⟩
    · change r.2++r'.2 = _
      rw [hr,hr']
      rfl
    · rwa [append_assoc] at hJ''

theorem ends_sweep_forall₂ {R : α → α → Prop} {pre as post : List α}
    (hf : ∀ s pre a rest,a::rest <:+ as → I s (pre++(a::(rest++post))) →
      Ends (f s a) E fun r => I r.1 (pre++(r.2++(rest++post))) ∧ ∃ b,r.2 = [b] ∧ R a b)
    (h : I s (pre++(as++post))) :
    Ends (sweep f s as) E fun r => I r.1 (pre++(r.2++post)) ∧ Forall₂ R as r.2 := by
  refine (ends_sweep_replacing (R := fun a out => ∃ b,out = [b] ∧ R a b) hf h).imp ?_
  rintro r ⟨hI,outs,hall,hr⟩
  refine ⟨hI,?_⟩
  rw [hr]
  exact forall₂_flatten hall

lemma sweep_append (s : σ) (as bs : List α) :
    sweep f s (as++bs) = sweep f s as >>= fun r => (fun q => (q.1,r.2++q.2)) <$> sweep f r.1 bs := by
  induction as generalizing s with
  | nil => cases hbs : sweep f s bs <;> simp [sweep,hbs,bind,Except.bind]
  | cons a as ih =>
    simp only [cons_append,sweep,bind,Except.bind]
    cases f s a with
    | error e => rfl
    | ok r =>
      simp only [ih]
      cases sweep f r.1 as with
      | error e => rfl
      | ok r' => cases hbs : sweep f r'.1 bs <;> simp [hbs,bind,Except.bind,pure,Except.pure]

lemma sweep_congr {g : σ → α → Except ε (σ × List α)} (h : ∀ a ∈ as,∀ s,f s a = g s a) :
    sweep f s as = sweep g s as := by
  induction as generalizing s with
  | nil => rfl
  | cons a as ih =>
    simp only [sweep,h a (by simp),ih fun b hb => h b (by simp [hb])]

lemma sweep_untouched_append (bs : List α) (h : ∀ a ∈ as,∀ s,f s a = .ok (s,[a])) :
    sweep f s (as++bs) = (fun r => (r.1,as++r.2)) <$> sweep f s bs := by
  induction as with
  | nil => cases hbs : sweep f s bs <;> simp [hbs]
  | cons a as ih =>
    simp only [cons_append,sweep,h a (by simp) s,bind,Except.bind]
    rw [ih fun b hb => h b (by simp [hb])]
    cases sweep f s bs <;> rfl

lemma sweep_of_untouched (h : ∀ a ∈ as,∀ s,f s a = .ok (s,[a])) : sweep f s as = .ok (s,as) := by
  have happ := sweep_untouched_append (s := s) [] h
  rw [append_nil] at happ
  rw [happ,sweep,Except.map_ok,append_nil]

end Sweep

end QuicWestwood
