import Hixl.AdxlEngineRules

/-!
# The guard of a failed connect

`Connect` checks that the remote has no channel, dials it, and on an error its
guard destroys the client channel under the dialled name.  With the channel pool
all connects are under `connection_mutex_`.  Without it the guard may find the
channel of another `Connect`, unless none is inserted under a name that another
call dials.
-/

namespace Hixl.Adxl.InnerEngine

open ProgramRuns ProgramRuns.System
open InterleavedCalls (forall_mem_append forall_mem_set forall_mem_set_of_forall pairs_append
  pairs_set)

/-- A client channel is inserted only under a name that no other call dials. -/
def connectsApart : Condition World Notes Oracle Request
  | w, all, i, .emplace (.client, name), _ =>
    (w.getChannel (.client, name)).isSome ||
      (all.eraseIdx i).all fun n => n.connect.dialled ≠ some name
  | _, _, _, _, _ => true

/-- The client channels of the dialled name are those that the call created. -/
def World.Dials (w : World) (connect : ConnectNotes) : Prop :=
  ∀ name ∈ connect.dialled, ∀ obj ∈ w.channels, w.keys[obj]? = some (.client, name) →
    obj ∈ connect.created

structure DialInvariant (options : Options) (w : World) (all : List Notes) : Prop where
  locks : w.Locks all
  locked : ∀ n ∈ all, options.pool → n.connect.dialled.isSome → n.owns .connection
  registered : ∀ obj ∈ w.channels, obj < w.keys.length
  existing : ∀ n ∈ all, ∀ obj ∈ n.connect.created, obj < w.keys.length
  dials : ∀ n ∈ all, w.Dials n.connect
  apart : ∀ (i j : ℕ) (a b : Notes), i ≠ j → all[i]? = some a → all[j]? = some b →
    ∀ obj ∈ a.connect.created, obj ∉ b.connect.created

variable {options : Options} {w : World} {notes : List Notes} {n : Notes} {request : Request}
  {oracle : Oracle} {i : ℕ} {n' : Notes}

theorem DialInvariant.keep (h : DialInvariant options w notes) (hi : notes[i]? = some n)
    {w' : World} (hlocks : w'.Locks (notes.set i n'))
    (hlocked : options.pool → n'.connect.dialled.isSome → n'.owns .connection)
    (hdials : w'.Dials n'.connect) (hcreated : n'.connect.created = n.connect.created := by rfl)
    (hchannels : ∀ obj ∈ w'.channels, obj ∈ w.channels := by exact fun _ h => h)
    (hkeys : w'.keys = w.keys := by rfl) : DialInvariant options w' (notes.set i n') where
  locks := hlocks
  locked := forall_mem_set_of_forall hlocked h.locked
  registered obj hobj := hkeys ▸ h.registered obj (hchannels obj hobj)
  existing := by
    rw [hkeys]
    refine forall_mem_set_of_forall ?_ h.existing
    rw [hcreated]
    exact h.existing n (List.mem_of_getElem? hi)
  dials := by
    refine forall_mem_set hdials fun _ m _ hm name hname obj hobj hkey => ?_
    exact h.dials m (List.mem_of_getElem? hm) name hname obj (hchannels obj hobj) (hkeys ▸ hkey)
  apart := by
    refine pairs_set h.apart fun j m hne hm => ?_
    rw [hcreated]
    exact ⟨h.apart i j n m (Ne.symm hne) hi hm, h.apart j i m n hne hm hi⟩

theorem DialInvariant.emplace (h : DialInvariant options w notes) (hi : notes[i]? = some n)
    {key : Key} (hlocks : (w.emplace key).Locks (notes.set i n'))
    (hlocked : options.pool → n'.connect.dialled.isSome → n'.owns .connection)
    (hdialled : n'.connect.dialled = n.connect.dialled)
    (hcreated : n'.connect.created = w.keys.length :: n.connect.created)
    (hothers : ∀ j m, j ≠ i → notes[j]? = some m → ∀ name ∈ m.connect.dialled,
      key ≠ (.client, name)) : DialInvariant options (w.emplace key) (notes.set i n') := by
  have hgrow : ∀ obj, obj < w.keys.length → obj < (w.emplace key).keys.length := by
    intro obj hobj
    rw [World.emplace, List.length_append]
    exact hobj.trans_le (Nat.le_add_right ..)
  have hkeys : ∀ obj ∈ w.channels, (w.emplace key).keys[obj]? = w.keys[obj]? :=
    fun obj hobj => List.getElem?_append_left (h.registered obj hobj)
  have hmem := List.mem_of_getElem? hi
  refine ⟨hlocks, forall_mem_set_of_forall hlocked h.locked,
    lt_length_emplace h.registered key, forall_mem_set ?_ fun _ m _ hm obj hobj => ?_,
    forall_mem_set ?_ fun j m hne hm name hname obj hobj hkey => ?_,
    pairs_set h.apart fun j m hne hm => ?_⟩
  · rw [hcreated]
    refine List.forall_mem_cons.mpr ⟨?_, fun obj hobj => hgrow obj (h.existing n hmem obj hobj)⟩
    rw [World.emplace, List.length_append, List.length_singleton]
    exact Nat.lt_succ_self _
  · exact hgrow obj (h.existing m (List.mem_of_getElem? hm) obj hobj)
  · intro name hname obj hobj hkey
    rw [hcreated]
    rcases List.mem_append.mp hobj with hold | hnew
    · refine List.mem_cons_of_mem _ (h.dials n hmem name (hdialled ▸ hname) obj hold ?_)
      exact hkeys obj hold ▸ hkey
    · exact List.mem_singleton.mp hnew ▸ List.mem_cons_self
  · rcases List.mem_append.mp hobj with hold | hnew
    · exact h.dials m (List.mem_of_getElem? hm) name hname obj hold (hkeys obj hold ▸ hkey)
    · rw [List.mem_singleton.mp hnew, World.emplace, List.getElem?_concat_length] at hkey
      exact absurd (Option.some.inj hkey) (hothers j m hne hm name hname)
  · have hfresh : w.keys.length ∉ m.connect.created :=
      fun hmem' => (h.existing m (List.mem_of_getElem? hm) _ hmem').false
    rw [hcreated]
    refine ⟨List.forall_mem_cons.mpr ⟨hfresh, h.apart i j n m (Ne.symm hne) hi hm⟩, ?_⟩
    intro obj hobj hin
    rcases List.mem_cons.mp hin with rfl | hin
    · exact hfresh hobj
    · exact h.apart j i m n hne hm hi obj hobj hin

theorem World.Dials.hangUp {connect : ConnectNotes} (h : w.Dials connect) (c : Prop)
    [Decidable c] : w.Dials { connect with dialled := if c then connect.dialled else none } := by
  split_ifs
  · exact h
  · exact nofun

theorem dialInvariant_sound : (engine options).Sound (allowed options)
      (fun w all i request oracle => options.pool || connectsApart w all i request oracle)
      (DialInvariant options) where
  follows := follows_program
  start {w all} h := by
    refine ⟨h.locks.append fun _ => rfl, forall_mem_append ?_ h.locked, h.registered,
      forall_mem_append ?_ h.existing, forall_mem_append ?_ h.dials, pairs_append h.apart ?_⟩
    · exact nofun
    · exact nofun
    · exact nofun
    · exact fun m hm => ⟨nofun, nofun⟩
  serve {w all i n request oracle} h hi hallowed hready hok := by
    have hlocks := h.locks.serve (w.reply oracle request) hi hallowed hready
    have hmem := List.mem_of_getElem? hi
    have hlocked := h.locked n hmem
    have hdials := h.dials n hmem
    have hhangUp : ∀ (c : Prop) [Decidable c], options.pool →
        (if c then n.connect.dialled else none).isSome → n.owns .connection := by
      intro c _ hpool hd
      split_ifs at hd
      · exact hlocked hpool hd
      · cases hd
    cases request with
    | outside step =>
      cases step with
      | connectToPeer | addSocketToEpoll =>
        exact h.keep hi hlocks (hhangUp _) (hdials.hangUp _)
      | _ => exact h.keep hi hlocks hlocked hdials
    | getChannel lookup key =>
      cases lookup with
      | guard => exact h.keep hi hlocks (hhangUp _) (hdials.hangUp _)
      | check =>
        refine h.keep hi hlocks (fun hpool _ => hallowed.2 hpool) ?_
        intro name hname obj hobj hkey
        change name ∈ (if (w.getChannel key).isSome then none else some key.2) at hname
        split_ifs at hname with hfound
        · cases hname
        · cases hname
          rw [Option.not_isSome_iff_eq_none] at hfound
          exact absurd (hkey.trans (by rw [← hallowed.1])) (getChannel_none hfound hobj)
      | _ => exact h.keep hi hlocks hlocked hdials
    | emplace key =>
      change DialInvariant options (w.serve oracle (.emplace key)) _
      change (w.serve oracle (.emplace key)).Locks _ at hlocks
      rw [serve_emplace] at hlocks ⊢
      split_ifs at hlocks ⊢ with hfound
      · have hreply : w.reply oracle (.emplace key) = none := by simp [World.reply, hfound]
        have hcreated : (n.after w (.emplace key) (w.reply oracle (.emplace key))).connect.created =
            n.connect.created := by rw [hreply]; rfl
        exact h.keep hi hlocks hlocked
          (fun name hname obj hobj hkey => hcreated ▸ hdials name hname obj hobj hkey) hcreated
      · have hreply : w.reply oracle (.emplace key) = some w.keys.length := by
          simp [World.reply, hfound]
        have hcreated : (n.after w (.emplace key) (w.reply oracle (.emplace key))).connect.created =
            w.keys.length :: n.connect.created := by rw [hreply]; rfl
        refine h.emplace hi hlocks hlocked rfl hcreated fun j m hne hm name hname => ?_
        rintro rfl
        rcases Bool.or_eq_true_iff.mp hok with hpool | hapart
        · -- both calls dial under the one lock
          have howns := hlocked hpool (hallowed.1 rfl)
          have hother := h.locked m (List.mem_of_getElem? hm) hpool
            (Option.isSome_iff_exists.mpr ⟨name, hname⟩)
          exact hne (h.locks.eq_of_owns hm hi hother howns)
        · simp only [connectsApart, hfound, Bool.false_or] at hapart
          have hm' := List.mem_eraseIdx_iff_getElem?.mpr ⟨j, hne, hm⟩
          exact of_decide_eq_true (List.all_eq_true.mp hapart m hm') hname
    | destroy cause target =>
      have hsub : ∀ obj ∈ (w.destroy (w.isTarget target)).channels, obj ∈ w.channels :=
        fun _ hobj => List.mem_of_mem_filter hobj
      have hdials' : (w.destroy (w.isTarget target)).Dials n.connect :=
        fun name hname obj hobj => hdials name hname obj (hsub obj hobj)
      cases cause with
      | guard =>
        refine h.keep hi hlocks (fun _ hd => ?_) (fun name hname => ?_) rfl hsub
        · cases hd
        · cases hname
      | _ => exact h.keep hi hlocks hlocked hdials' rfl hsub
    | lock lock =>
      refine h.keep hi hlocks (fun hpool hd => ?_) hdials
      have howns := hlocked hpool hd
      cases lock <;> simp [engine, Notes.after, ownsAfter, howns]
    | unlock lock =>
      refine h.keep hi hlocks (fun hpool hd => ?_) hdials
      have howns := hlocked hpool hd
      cases lock with
      | requests => simp [engine, Notes.after, ownsAfter, howns]
      | connection =>
        change n.connect.dialled.isSome at hd
        rw [hallowed.2 rfl] at hd
        cases hd
    | _ => exact h.keep hi hlocks hlocked hdials

/-- With the channel pool, or where no client channel is inserted under a name
that another call dials, the guard of a failed connect destroys no channel that
another call has created. -/
theorem failedConnect_sparesOthers (options : Options) (actions : List (Action Call Oracle))
    (s : EngineConfig) (hrun : (engine options).run { world := {} } actions = some s)
    (hcond : options.pool = true ∨
      (engine options).along connectsApart { world := {} } actions = true)
    (i j : ℕ) (failing other : Party Notes Request Answer ℕ) (hne : i ≠ j)
    (hi : s.parties[i]? = some failing) (hj : s.parties[j]? = some other) (name : String)
    (hguard : failing.pending = some (.destroy .guard (.key (.client, name)))) (obj : ℕ)
    (hobj : obj ∈ s.world.channels) (hkey : s.world.keys[obj]? = some (.client, name)) :
    obj ∉ other.notes.connect.created := by
  have hok : (engine options).along
      (fun w all i request oracle => options.pool || connectsApart w all i request oracle)
      { world := {} } actions = true := by
    cases hpool : options.pool with
    | true =>
      exact along_true _ _ _
    | false =>
      exact hcond.resolve_left (by simp [hpool])
  have hkept := dialInvariant_sound.run hrun hok
    ⟨ExclusiveOwners.Owned.empty, by simp, by simp, by simp, by simp, by simp⟩
  obtain ⟨dialled, htarget, hdialled⟩ := hkept.allowed_pending hi hguard
  cases htarget
  have hnotes : ∀ {k : ℕ} {party : Party Notes Request Answer ℕ}, s.parties[k]? = some party →
      s.notes[k]? = some party.notes := fun hk => by simp [Config.notes, hk]
  have hown := hkept.1.dials _ (List.mem_of_getElem? (hnotes hi)) name hdialled obj hobj hkey
  exact hkept.1.apart i j _ _ hne (hnotes hi) (hnotes hj) obj hown

/-- One connect fails at the peer after it has created its channel, another was
made before under another name. -/
def failingRun : List (Action Call Oracle) :=
  .start (.connect "b" 0) :: serves 0 18 { peer := { channelId := "b" } } ++
    .start (.connect "a" 0) :: serves 1 12 peerA ++
    serves 1 2 { status := Status.timeout.code }

theorem failedConnect_sparesOthers_pool : ∃ s : EngineConfig,
    (engine {}).run { world := {} } failingRun = some s ∧ s.world.channels = [0, 1] ∧
      (s.parties[0]?.map fun party => party.notes.connect.created) = some [0] ∧
      1 ∉ ((s.parties[0]?.map fun party => party.notes.connect.created).getD []) :=
  ⟨_, rfl, rfl, rfl, failedConnect_sparesOthers {} failingRun _ rfl (Or.inl rfl) 1 0 _ _
    (by decide) rfl rfl "a" rfl 1 (by decide) rfl⟩

/-- Two connects of one remote without the channel pool: both find no channel,
the first creates one and returns, the second finds it when it creates its own. -/
def twoConnects : List (Action Call Oracle) :=
  [.start (.connect "a" 0), .start (.connect "a" 0)] ++ serves 0 3 peerA ++ serves 1 3 peerA ++
    serves 0 9 peerA ++ serves 1 5 peerA

theorem failedConnect_destroysOther :
    (∃ s : EngineConfig, (engine { pool := false }).run { world := {} } twoConnects = some s ∧
        s.parties.map Party.result = [some 0, none] ∧
        (s.parties[0]?.map fun party => party.notes.connect.created) = some [0] ∧
        s.parties[1]?.bind Party.pending = some (.destroy .guard (.key (.client, "a"))) ∧
        s.world.getChannel (.client, "a") = some 0) ∧
    ∃ s : EngineConfig,
      (engine { pool := false }).run { world := {} } (twoConnects ++ [.serve 1 {}]) = some s ∧
        s.parties.map Party.result = [some 0, some alreadyConnected] ∧
        s.world.getChannel (.client, "a") = none :=
  ⟨⟨_, rfl, rfl, rfl, rfl, rfl⟩, _, rfl, rfl, rfl⟩

end Hixl.Adxl.InnerEngine
