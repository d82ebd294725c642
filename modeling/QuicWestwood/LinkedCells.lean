import Mathlib

/-! Cells stand at addresses and point to the next one. A segment is the list of the cells passed from one
pointer to another. It reads only its own cells, and a store at its last cell moves its end. -/
namespace QuicWestwood.LinkedCells

structure Cell (α : Type*) where
  val : α
  next : Option ℕ := none

structure Heap (α : Type*) where
  cells : ℕ → Option (Cell α) := fun _ => none
  fresh : ℕ := 0

variable {α : Type*} {cells cells' : ℕ → Option (Cell α)} {p q : Option ℕ} {l m : List (ℕ × α)}
  {heap heap' heap'' : Heap α} {used used' used'' : List ℕ}

def Heap.set (heap : Heap α) (a : ℕ) (cell : Option (Cell α)) : Heap α :=
  {heap with cells := Function.update heap.cells a cell}

/-- The new cell stands at the address `heap.fresh`. -/
def Heap.new (heap : Heap α) (cell : Cell α) : Heap α :=
  ⟨Function.update heap.cells heap.fresh (some cell),heap.fresh+1⟩

def Segment (cells : ℕ → Option (Cell α)) : Option ℕ → List (ℕ × α) → Option ℕ → Prop
  | p, [], q => p = q
  | p, e::l, q => p = some e.1 ∧ ∃ next,cells e.1 = some ⟨e.2,next⟩ ∧ Segment cells next l q

def addrs (l : List (ℕ × α)) : List ℕ := l.map Prod.fst

@[simp] lemma addrs_nil : addrs ([] : List (ℕ × α)) = [] := rfl

@[simp] lemma addrs_cons (e : ℕ × α) : addrs (e::l) = e.1::addrs l := rfl

@[simp] lemma addrs_append : addrs (l++m) = addrs l++addrs m := List.map_append

lemma notMem_of_nodup {e : ℕ × α} (h : (addrs (l++e::m)).Nodup) : e.1 ∉ addrs l := by
  rw [addrs_append,List.nodup_append] at h
  exact fun he => h.2.2 e.1 he e.1 (by simp) rfl

/-- The address of the last cell of a segment. -/
def last (l : List (ℕ × α)) : Option ℕ := (addrs l).getLast?

@[simp] lemma last_concat (e : ℕ × α) : last (l++[e]) = some e.1 := by simp [last]

lemma last_append_cons (e : ℕ × α) : last (l++e::m) = if m=[] then some e.1 else last m := by
  cases m <;> simp [last,List.getLast?_cons]

lemma segment_append : Segment cells p (l++m) q ↔ ∃ r,Segment cells p l r ∧ Segment cells r m q := by
  induction l generalizing p with
  | nil => simp [Segment]
  | cons e l ih =>
    simp only [List.cons_append,Segment,ih]
    constructor
    · intro ⟨hp,next,he,r,hl,hm⟩
      exact ⟨r,⟨hp,next,he,hl⟩,hm⟩
    · intro ⟨r,⟨hp,next,he,hl⟩,hm⟩
      exact ⟨hp,next,he,r,hl,hm⟩

lemma segment_concat {a : ℕ} {x : α} :
    Segment cells p (l++[(a,x)]) q ↔ Segment cells p l (some a) ∧ cells a = some ⟨x,q⟩ := by
  simp [segment_append,Segment]

lemma Segment.congr (h : Segment cells p l q) (hsame : ∀ a ∈ addrs l,cells' a = cells a) :
    Segment cells' p l q := by
  induction l generalizing p with
  | nil => exact h
  | cons e l ih =>
    obtain ⟨hp,next,he,hl⟩ := h
    exact ⟨hp,next,by rw [hsame e.1 (by simp),he],ih hl fun a ha => hsame a (by simp_all)⟩

lemma Segment.unique (hl : Segment cells p l none) (hm : Segment cells p m none) : l=m := by
  induction l generalizing p m with
  | nil => cases m <;> simp_all [Segment]
  | cons e l ih =>
    cases m with
    | nil => simp_all [Segment]
    | cons f m =>
      obtain ⟨hp,next,he,hl⟩ := hl
      obtain ⟨hp',next',hf,hm⟩ := hm
      obtain rfl : e=f := by
        have : e.1=f.1 := Option.some.inj (hp.symm.trans hp')
        ext <;> simp_all
      simp_all [ih hl (m := m)]

/-- A store at the last cell of a segment moves its end. -/
lemma Segment.relink {a : ℕ} {x : α} (h : Segment cells p (l++[(a,x)]) q) (ha : a ∉ addrs l) (x' : α)
    (r : Option ℕ) : Segment (Function.update cells a (some ⟨x',r⟩)) p (l++[(a,x')]) r := by
  apply segment_concat.mpr
  refine ⟨(segment_concat.mp h).1.congr fun b hb => ?_,Function.update_self ..⟩
  exact Function.update_of_ne (ne_of_mem_of_not_mem hb ha) ..

/-- Of the cells of a heap only `used` are written; they and new ones make up `used'`. -/
structure Became (heap heap' : Heap α) (used used' : List ℕ) : Prop where
  fresh : heap.fresh≤heap'.fresh
  same : ∀ a < heap.fresh,a ∉ used → heap'.cells a = heap.cells a
  kept : ∀ a ∈ used',a ∈ used ∨ heap.fresh≤a

lemma Became.refl (hused : used' ⊆ used) : Became heap heap used used' :=
  ⟨le_rfl,fun _ _ _ => rfl,fun _ ha => .inl (hused ha)⟩

lemma Became.trans (h : Became heap heap' used used') (h' : Became heap' heap'' used' used'') :
    Became heap heap'' used used'' where
  fresh := h.fresh.trans h'.fresh
  same a ha hused := by
    have hused' : a ∉ used' := fun hu => (h.kept a hu).elim hused (by omega)
    rw [h'.same a (ha.trans_le h.fresh) hused',h.same a ha hused]
  kept a ha := by
    rcases h'.kept a ha with hu | hf
    · exact h.kept a hu
    · exact .inr (h.fresh.trans hf)

end QuicWestwood.LinkedCells
