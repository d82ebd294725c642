import Mathlib

/-! A reader consumes a part of the input from the front or fails. `Reads r bytes a` says that `r` turns exactly
`bytes` into `a`, whatever follows; the rules below build such facts along the structure of a reader. -/
namespace QuicWestwood.ByteCodec

abbrev Bytes := List UInt8

/-- The low `n` bytes of a number, the most significant first. -/
def bigEndian : ℕ → ℕ → Bytes
  | 0, _ => []
  | n+1, v => UInt8.ofNat (v/256^n)::bigEndian n v

def ofBigEndian (bytes : Bytes) : ℕ := bytes.foldl (fun acc b => 256*acc+b.toNat) 0

@[simp] lemma bigEndian_length (n v : ℕ) : (bigEndian n v).length = n := by
  induction n with
  | zero => rfl
  | succ n ih => simp [bigEndian,ih]

lemma foldl_bigEndian (n v acc : ℕ) :
    (bigEndian n v).foldl (fun acc b => 256*acc+b.toNat) acc = 256^n*acc+v % 256^n := by
  induction n generalizing acc with
  | zero => simp [bigEndian,Nat.mod_one]
  | succ n ih =>
    have hsplit : v % 256^(n+1) = v % 256^n+256^n*(v/256^n % 256) := by
      rw [pow_succ,Nat.mod_mul]
    rw [bigEndian,List.foldl_cons,ih,hsplit,UInt8.toNat_ofNat']
    ring

@[simp] lemma ofBigEndian_bigEndian (n v : ℕ) : ofBigEndian (bigEndian n v) = v % 256^n := by
  simpa [ofBigEndian] using foldl_bigEndian n v 0

abbrev Reader (ε α : Type) := StateT Bytes (Except ε) α

variable {ε α β : Type}

@[simp] lemma ok_bind (a : α) (f : α → Except ε β) : (Except.ok a >>= f) = f a := rfl

variable {x : Except ε α}

lemma bind_eq_ok {f : α → Except ε β} {b : β} : (x >>= f) = .ok b ↔ ∃ a,x = .ok a ∧ f a = .ok b := by
  cases x with
  | error e => simp [bind,Except.bind]
  | ok a => simp [bind,Except.bind]

lemma bind_congr_ok {f g : α → Except ε β} (h : ∀ a,x = .ok a → f a = g a) : (x >>= f) = x >>= g := by
  cases x with
  | error e => rfl
  | ok a => exact h a rfl

lemma map_eq_ok {f : α → β} {b : β} : (f <$> x) = .ok b ↔ ∃ a,x = .ok a ∧ f a = b := by
  cases x with
  | error e => simp [Functor.map,Except.map]
  | ok a => simp [Functor.map,Except.map]

def Reads (r : Reader ε α) (bytes : Bytes) (a : α) : Prop :=
  ∀ rest,r.run (bytes++rest) = .ok (a,rest)

lemma reads_pure (a : α) : Reads (pure a : Reader ε α) [] a := fun _ => rfl

variable {r : Reader ε α}

lemma Reads.bind {f : α → Reader ε β} {bytes bytes' : Bytes} {a : α} {b : β} (h : Reads r bytes a)
    (h' : Reads (f a) bytes' b) : Reads (r >>= f) (bytes++bytes') b := by
  intro rest
  rw [StateT.run_bind,List.append_assoc,h (bytes'++rest)]
  exact h' rest

lemma reads_lift {a : α} (h : x = .ok a) : Reads (liftM x : Reader ε α) [] a := by
  intro rest
  rw [h]
  rfl

def Fails (r : Reader ε α) (bytes : Bytes) : Prop :=
  ∀ rest,∃ e,r.run (bytes++rest) = .error e

lemma fails_lift {e : ε} (h : x = .error e) : Fails (liftM x : Reader ε α) [] := by
  intro rest
  exact ⟨e,by rw [h]; rfl⟩

lemma Fails.bind {bytes : Bytes} (h : Fails r bytes) (f : α → Reader ε β) (bytes' : Bytes) :
    Fails (r >>= f) (bytes++bytes') := by
  intro rest
  obtain ⟨e,he⟩ := h (bytes'++rest)
  exact ⟨e,by rw [StateT.run_bind,List.append_assoc,he]; rfl⟩

lemma Reads.bind_fails {f : α → Reader ε β} {bytes bytes' : Bytes} {a : α} (h : Reads r bytes a)
    (h' : Fails (f a) bytes') : Fails (r >>= f) (bytes++bytes') := by
  intro rest
  obtain ⟨e,he⟩ := h' rest
  refine ⟨e,?_⟩
  rw [StateT.run_bind,List.append_assoc,h (bytes'++rest)]
  exact he

lemma Reads.map {bytes : Bytes} {a : α} (h : Reads r bytes a) (f : α → β) : Reads (f <$> r) bytes (f a) := by
  intro rest
  rw [StateT.run_map,h rest]
  rfl

def readMany (item : β → Reader ε (α × β)) : ℕ → β → Reader ε (List α × β)
  | 0, s => pure ([],s)
  | n+1, s => do
    let (a,s') ← item s
    (fun p => (a::p.1,p.2)) <$> readMany item n s'

lemma reads_readMany_zero (item : β → Reader ε (α × β)) (s : β) :
    Reads (readMany item 0 s) [] ([],s) := reads_pure _

lemma Reads.readMany_succ {item : β → Reader ε (α × β)} {n : ℕ} {s s' s'' : β} {a : α} {as : List α}
    {bytes bytes' : Bytes} (h : Reads (item s) bytes (a,s'))
    (h' : Reads (readMany item n s') bytes' (as,s'')) :
    Reads (readMany item (n+1) s) (bytes++bytes') (a::as,s'') :=
  h.bind (h'.map fun p => (a::p.1,p.2))

lemma reads_readMany_map {γ : Type} {item : Unit → Reader ε (α × Unit)} {encode : γ → Bytes} {f : γ → α}
    {xs : List γ} (h : ∀ x ∈ xs,Reads (item ()) (encode x) (f x,())) :
    Reads (readMany item xs.length ()) (xs.flatMap encode) (xs.map f,()) := by
  induction xs with
  | nil => exact reads_readMany_zero item ()
  | cons x xs ih => exact (h x (by simp)).readMany_succ (ih fun y hy => h y (by simp [hy]))

end QuicWestwood.ByteCodec
