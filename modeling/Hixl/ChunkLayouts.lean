import Mathlib.Tactic

/-!
# Layouts of a memory range in chunks

A range of pages is cut into chunks that are used or free, in the order of
their addresses.  Each chunk has a name.  The layout is coalesced when no two
neighbours are free.  Cutting a used chunk off a free one, and giving a chunk
free together with its free neighbours, keep a layout coalesced and keep the
chunks at consecutive addresses.
-/

namespace ChunkLayouts

variable {π : Type*}

structure Chunk (π : Type*) where
  ptr : π
  pages : ℕ
  used : Bool

def pageCount (chunks : List (Chunk π)) : ℕ := (chunks.map Chunk.pages).sum

def freeChunks (chunks : List (Chunk π)) : List (Chunk π) := chunks.filter fun c => !c.used

@[simp] theorem pageCount_nil : pageCount ([] : List (Chunk π)) = 0 := rfl

@[simp] theorem pageCount_cons (c : Chunk π) (rest : List (Chunk π)) :
    pageCount (c :: rest) = c.pages + pageCount rest := by
  simp [pageCount]

@[simp] theorem pageCount_append (xs ys : List (Chunk π)) :
    pageCount (xs ++ ys) = pageCount xs + pageCount ys := by
  simp [pageCount]

variable {chunks : List (Chunk π)}

theorem mem_freeChunks {c : Chunk π} : c ∈ freeChunks chunks ↔ c ∈ chunks ∧ c.used = false := by
  simp [freeChunks]

@[simp] theorem freeChunks_append (xs ys : List (Chunk π)) :
    freeChunks (xs ++ ys) = freeChunks xs ++ freeChunks ys := by
  simp [freeChunks]

theorem freeChunks_cons_used {c : Chunk π} (hused : c.used = true) (rest : List (Chunk π)) :
    freeChunks (c :: rest) = freeChunks rest := by
  simp [freeChunks, hused]

theorem freeChunks_cons_free {c : Chunk π} (hfree : c.used = false) (rest : List (Chunk π)) :
    freeChunks (c :: rest) = c :: freeChunks rest := by
  simp [freeChunks, hfree]

def UsedName (chunks : List (Chunk π)) (ptr : π) : Prop := ∃ c ∈ chunks, c.ptr = ptr ∧ c.used = true

theorem usedName_append (xs ys : List (Chunk π)) (ptr : π) :
    UsedName (xs ++ ys) ptr ↔ UsedName xs ptr ∨ UsedName ys ptr := by
  simp only [UsedName, List.mem_append, or_and_right, exists_or]

theorem usedName_cons (c : Chunk π) (rest : List (Chunk π)) (ptr : π) : UsedName (c :: rest) ptr ↔
      (c.ptr = ptr ∧ c.used = true) ∨ UsedName rest ptr := by
  simp [UsedName]

theorem UsedName.mem_names {ptr : π} (hname : UsedName chunks ptr) :
    ptr ∈ chunks.map Chunk.ptr := by
  rcases hname with ⟨c, hc, rfl, _⟩
  exact List.mem_map_of_mem hc

theorem pages_le_pageCount {c : Chunk π} (hmem : c ∈ chunks) : c.pages ≤ pageCount chunks := by
  rcases List.append_of_mem hmem with ⟨xs, ys, rfl⟩
  rw [pageCount_append, pageCount_cons]
  omega

def Coalesced (chunks : List (Chunk π)) : Prop :=
  chunks.IsChain fun c d => c.used = true ∨ d.used = true

variable {xs ys : List (Chunk π)} {c c' : Chunk π}

theorem coalesced_middle :
    Coalesced (xs ++ c :: ys) ↔ (Coalesced xs ∧ ∀ b ∈ xs.getLast?, b.used = true ∨ c.used = true) ∧
        Coalesced ys ∧ ∀ d ∈ ys.head?, c.used = true ∨ d.used = true := by
  unfold Coalesced
  rw [List.isChain_append, List.isChain_cons]
  simp only [List.head?_cons, Option.mem_def, Option.some.injEq, forall_eq']
  tauto

theorem Coalesced.use (hcoalesced : Coalesced (xs ++ c :: ys)) (hused : c'.used = true) :
    Coalesced (xs ++ c' :: ys) := by
  rw [coalesced_middle] at hcoalesced ⊢
  exact ⟨⟨hcoalesced.1.1, fun _ _ => Or.inr hused⟩, hcoalesced.2.1, fun _ _ => Or.inl hused⟩

theorem Coalesced.split (hcoalesced : Coalesced (xs ++ c :: ys)) {right : Chunk π}
    (hleft : c'.used = c.used) (hright : right.used = true) :
    Coalesced (xs ++ c' :: right :: ys) := by
  rw [coalesced_middle] at hcoalesced ⊢
  rcases hcoalesced with ⟨⟨hxs, hlast⟩, hys, _⟩
  refine ⟨⟨hxs, ?_⟩, ?_, ?_⟩
  · rwa [hleft]
  · exact List.isChain_cons.mpr ⟨fun _ _ => Or.inl hright, hys⟩
  · intro d hd
    rcases Option.mem_some_iff.mp hd with rfl
    exact Or.inr hright

theorem Coalesced.release (hxs : Coalesced xs) (hlast : ∀ b ∈ xs.getLast?, b.used = true)
    (hys : Coalesced ys) (hhead : ∀ d ∈ ys.head?, d.used = true) : Coalesced (xs ++ c :: ys) :=
  coalesced_middle.mpr ⟨⟨hxs, fun b hb => Or.inl (hlast b hb)⟩, hys,
    fun d hd => Or.inr (hhead d hd)⟩

theorem Coalesced.last_used (hcoalesced : Coalesced (xs ++ c :: ys)) (hfree : c.used = false) :
    Coalesced xs ∧ ∀ b ∈ xs.getLast?, b.used = true := by
  rcases (coalesced_middle.mp hcoalesced).1 with ⟨hxs, hlast⟩
  refine ⟨hxs, fun b hb => (hlast b hb).resolve_right ?_⟩
  simp [hfree]

theorem Coalesced.eq_singleton (hcoalesced : Coalesced chunks)
    (hfree : ∀ c ∈ chunks, c.used = false) (hne : chunks ≠ []) : ∃ c, chunks = [c] := by
  rcases chunks with _ | ⟨c, _ | ⟨d, rest⟩⟩
  · exact absurd rfl hne
  · exact ⟨c, rfl⟩
  · have hpair := (List.isChain_cons_cons.mp hcoalesced).1
    rw [hfree c (by simp), hfree d (by simp)] at hpair
    simp at hpair

def Located (addr : π → Option ℕ) (page : ℕ) : ℕ → List (Chunk π) → Prop
  | _, [] => True
  | start, c :: rest => addr c.ptr = some start ∧ Located addr page (start + c.pages * page) rest

variable {addr addr' : π → Option ℕ} {page start : ℕ}

theorem located_append : Located addr page start (xs ++ ys) ↔ Located addr page start xs ∧
        Located addr page (start + pageCount xs * page) ys := by
  induction xs generalizing start with
  | nil => simp [Located]
  | cons first rest ih =>
    have hend : start + first.pages * page + pageCount rest * page =
        start + pageCount (first :: rest) * page := by
      rw [pageCount_cons]
      ring
    rw [List.cons_append, Located, Located, ih, hend, and_assoc]

theorem located_middle : Located addr page start (xs ++ c :: ys) ↔ Located addr page start xs ∧
        addr c.ptr = some (start + pageCount xs * page) ∧
        Located addr page (start + (pageCount xs + c.pages) * page) ys := by
  have hend : start + pageCount xs * page + c.pages * page =
      start + (pageCount xs + c.pages) * page := by ring
  rw [located_append, Located, hend]

theorem Located.congr (hlocated : Located addr page start chunks)
    (hsame : ∀ c ∈ chunks, addr' c.ptr = addr c.ptr) : Located addr' page start chunks := by
  induction chunks generalizing start with
  | nil => exact trivial
  | cons first rest ih =>
    exact ⟨(hsame first List.mem_cons_self).trans hlocated.1,
      ih hlocated.2 fun c hc => hsame c (List.mem_cons_of_mem _ hc)⟩

theorem Located.start_le (hlocated : Located addr page start chunks) {d : Chunk π}
    (hmem : d ∈ chunks) : ∃ a, addr d.ptr = some a ∧ start ≤ a := by
  induction chunks generalizing start with
  | nil => cases hmem
  | cons first rest ih =>
    rcases List.mem_cons.mp hmem with rfl | hmem
    · exact ⟨start, hlocated.1, Nat.le_refl _⟩
    · rcases ih hlocated.2 hmem with ⟨a, haddr, hle⟩
      exact ⟨a, haddr, by omega⟩

theorem Located.pairwise (hlocated : Located addr page start chunks) :
    chunks.Pairwise fun c d => ∀ a b, addr c.ptr = some a →
      addr d.ptr = some b → a + c.pages * page ≤ b := by
  induction chunks generalizing start with
  | nil => exact List.Pairwise.nil
  | cons first rest ih =>
    refine List.Pairwise.cons ?_ (ih hlocated.2)
    intro d hd a b ha hb
    rcases hlocated.2.start_le hd with ⟨b', hb', hle⟩
    rw [hlocated.1, Option.some.injEq] at ha
    rw [hb', Option.some.injEq] at hb
    omega

end ChunkLayouts
