import Himmy.Library.Transition
import Mathlib.Data.List.Perm.Subperm
import Mathlib.Data.List.Nodup
import Mathlib.Data.List.Sigma

/-! # The frames of a background mission

A mission appends its frames to a ring buffer, and any number of followers read along: each one
starts with the oldest frame that is still buffered, takes all that there is whenever it is woken,
and ends once the mission is not running and nothing is left. The frames that were ever appended are
kept beside the buffer, to say what a follower has seen of them. -/

namespace Himmy.Missions

variable {φ : Type}

/-- The generator of `stream`: its cursor, and the frames that it has yielded with their places. -/
structure Follower (φ : Type) where
  start : Nat
  cursor : Nat
  delivered : List (φ × Nat) := []
  ended : Bool := false

/-- A mission with its followers; `finished` is the number of frames when it left `running`, and
    `log` has the frames that were ever appended. -/
structure Mission (φ : Type) where
  frames : List φ := []
  framesDropped : Nat := 0
  finished : Option Nat := none
  log : List φ := []
  followers : List (Follower φ) := []

namespace Mission

/-- `_append`, with a buffer for `frameBuffer` frames. -/
def append (frameBuffer : Nat) (m : Mission φ) (frame : φ) : Mission φ :=
  let frames := m.frames ++ [frame]
  let overflow := frames.length - frameBuffer
  { m with
    frames := frames.drop overflow
    framesDropped := m.framesDropped + overflow
    log := m.log ++ [frame] }

/-- A follower that is woken: it takes what is buffered, ends, or waits. -/
def poll (m : Mission φ) (f : Follower φ) : Follower φ :=
  let total := m.framesDropped + m.frames.length
  let cursor := if f.cursor < m.framesDropped then m.framesDropped else f.cursor
  if cursor < total then
    { f with
      cursor := total
      delivered := f.delivered ++ (m.frames.drop (cursor - m.framesDropped)).zipIdx cursor }
  else { f with cursor, ended := m.finished.isSome }

end Mission

inductive Label (φ : Type)
  | append (frame : φ)
  | finish
  | attach
  | poll (i : Nat)

def missions (frameBuffer : Nat) : LTS (Mission φ) (Label φ) where
  step m
    | .append frame => some (m.append frameBuffer frame)
    | .finish => if m.finished = none then some { m with finished := some m.log.length } else none
    | .attach =>
      some { m with followers :=
        m.followers ++ [{ start := m.framesDropped, cursor := m.framesDropped }] }
    | .poll i =>
      match m.followers[i]? with
      | some f =>
        if f.ended = true then none else some { m with followers := m.followers.set i (m.poll f) }
      | none => none

/-! ## What a follower sees -/

/-- The buffer has the last frames. -/
structure Ring (frameBuffer : Nat) (m : Mission φ) : Prop where
  room : 0 < frameBuffer
  frames : m.frames = m.log.drop m.framesDropped
  dropped : m.framesDropped = m.log.length - frameBuffer
  finished : ∀ n ∈ m.finished, n ≤ m.log.length

/-- The follower has yielded the frames between its start and its cursor in their order, without
    those that had fallen off the ring. -/
structure Sees (m : Mission φ) (f : Follower φ) : Prop where
  start : f.start ≤ f.cursor
  cursor : f.cursor ≤ m.log.length
  order : f.delivered.Sublist ((m.log.zipIdx.take f.cursor).drop f.start)
  missed : ∀ p ∈ (m.log.zipIdx.take f.cursor).drop f.start, p ∈ f.delivered ∨ p.2 < m.framesDropped
  ended : f.ended = true → ∃ n ∈ m.finished, n ≤ f.cursor

variable {frameBuffer : Nat} {m m' : Mission φ} {f : Follower φ}

theorem Ring.append (h : Ring frameBuffer m) (frame : φ) :
    Ring frameBuffer (m.append frameBuffer frame) := by
  have hlength : m.frames.length = m.log.length - m.framesDropped := by
    rw [h.frames, List.length_drop]
  have hdropped := h.dropped
  refine ⟨h.room, ?_, ?_, fun n hn => ?_⟩
  · have hle : m.framesDropped ≤ m.log.length := by omega
    simp only [Mission.append]
    rw [h.frames, ← List.drop_append_of_le_length hle, List.drop_drop]
  · simp only [Mission.append, List.length_append, List.length_singleton, hlength]
    omega
  · have := h.finished n hn
    simp only [Mission.append, List.length_append]
    omega

theorem Sees.mono (h : Sees m f) (hlog : ∃ rest, m'.log = m.log ++ rest)
    (hdropped : m.framesDropped ≤ m'.framesDropped)
    (hfinished : ∀ n ∈ m.finished, n ∈ m'.finished) : Sees m' f := by
  obtain ⟨rest, hrest⟩ := hlog
  have htake : m'.log.zipIdx.take f.cursor = m.log.zipIdx.take f.cursor := by
    rw [hrest, List.zipIdx_append, List.take_append_of_le_length]
    rw [List.length_zipIdx]
    exact h.cursor
  refine ⟨h.start, ?_, ?_, ?_, fun hended => ?_⟩
  · rw [hrest, List.length_append]
    exact Nat.le_add_right_of_le h.cursor
  · rw [htake]
    exact h.order
  · rw [htake]
    exact fun p hp => (h.missed p hp).imp_right fun hlt => Nat.lt_of_lt_of_le hlt hdropped
  · obtain ⟨n, hn, hle⟩ := h.ended hended
    exact ⟨n, hfinished n hn, hle⟩

theorem drop_zipIdx (l : List φ) {c : Nat} (hc : c ≤ l.length) :
    l.zipIdx.take c = (l.take c).zipIdx ∧ l.zipIdx.drop c = (l.drop c).zipIdx c := by
  have hsplit : l.zipIdx = (l.take c).zipIdx ++ (l.drop c).zipIdx c := by
    conv_lhs => rw [← List.take_append_drop c l]
    rw [List.zipIdx_append, List.length_take, Nat.min_eq_left hc, Nat.zero_add]
  have hlength : (l.take c).zipIdx.length = c := by
    rw [List.length_zipIdx, List.length_take, Nat.min_eq_left hc]
  rw [hsplit]
  exact ⟨List.take_left' hlength, List.drop_left' hlength⟩

theorem Sees.poll (h : Sees m f) (hring : Ring frameBuffer m) (hopen : f.ended = false) :
    Sees m (m.poll f) := by
  have hdropped : m.framesDropped ≤ m.log.length := by
    rw [hring.dropped]
    exact Nat.sub_le ..
  have htotal : m.framesDropped + m.frames.length = m.log.length := by
    rw [hring.frames, List.length_drop]
    omega
  obtain ⟨c, hc⟩ : ∃ c, c = if f.cursor < m.framesDropped then m.framesDropped else f.cursor :=
    ⟨_, rfl⟩
  have hfrom : f.cursor ≤ c ∧ c ≤ m.log.length ∧ (f.cursor = c ∨ c = m.framesDropped)
    ∧ m.framesDropped ≤ c := by
    have := h.cursor
    rw [hc]
    split <;> omega
  obtain ⟨hle, hend, hskip, hkept⟩ := hfrom
  have hall : m.log.zipIdx.take m.log.length = m.log.zipIdx :=
    List.take_of_length_le List.length_zipIdx.le
  have hsplit : m.log.zipIdx.drop f.start
      = (m.log.zipIdx.take f.cursor).drop f.start ++ m.log.zipIdx.drop f.cursor := by
    conv_lhs => rw [← List.take_append_drop f.cursor m.log.zipIdx]
    rw [List.drop_append_of_le_length]
    rw [List.length_take, List.length_zipIdx, Nat.min_eq_left h.cursor]
    exact h.start
  unfold Mission.poll
  dsimp only
  rw [htotal, ← hc]
  split
  · have hbatch : (m.frames.drop (c - m.framesDropped)).zipIdx c = m.log.zipIdx.drop c := by
      rw [hring.frames, List.drop_drop, Nat.add_sub_cancel' hkept, (drop_zipIdx m.log hend).2]
    have hrest : m.log.zipIdx.drop f.cursor = (m.log.zipIdx.drop f.cursor).take (c - f.cursor)
      ++ m.log.zipIdx.drop c := by
      conv_lhs => rw [← List.take_append_drop (c - f.cursor) (m.log.zipIdx.drop f.cursor)]
      rw [List.drop_drop, Nat.add_sub_cancel' hle]
    refine ⟨Nat.le_trans h.start h.cursor, Nat.le_refl _, ?_, fun p hp => ?_, fun hended => ?_⟩
    · rw [hbatch, hall, hsplit, hrest]
      exact h.order.append (List.sublist_append_right ..)
    · rw [hall, hsplit, hrest, List.mem_append, List.mem_append] at hp
      rw [hbatch, List.mem_append]
      rcases hp with hp | hp | hp
      · exact (h.missed p hp).imp_left .inl
      · -- a frame before the place to which the cursor was moved
        rw [← List.drop_take, (drop_zipIdx m.log hend).1] at hp
        have hlt := List.snd_lt_of_mem_zipIdx (List.mem_of_mem_drop hp)
        rw [List.length_take, Nat.min_eq_left hend] at hlt
        rcases hskip with rfl | rfl
        · rw [List.drop_eq_nil_of_le
            (by rw [List.length_zipIdx, List.length_take]; exact Nat.min_le_left ..)] at hp
          cases hp
        · exact .inr hlt
      · exact .inl (.inr hp)
    · rw [hopen] at hended
      cases hended
  · next hnone =>
      have hsame : c = f.cursor := by
        have := h.cursor
        have := hring.room
        have := hring.dropped
        omega
      rw [hsame] at hnone ⊢
      refine ⟨h.start, h.cursor, h.order, h.missed, fun hended => ?_⟩
      obtain ⟨n, hn⟩ := Option.isSome_iff_exists.1 hended
      exact ⟨n, hn, Nat.le_trans (hring.finished n hn) (not_lt.1 hnone)⟩

def Kept (frameBuffer : Nat) (m : Mission φ) : Prop :=
  Ring frameBuffer m ∧ ∀ f ∈ m.followers, Sees m f

theorem Kept.step (h : Kept frameBuffer m) {a : Label φ}
    (hstep : (missions frameBuffer).step m a = some m') :
    Kept frameBuffer m' := by
  obtain ⟨hring, hsees⟩ := h
  cases a with
  | append frame =>
    cases hstep
    refine ⟨hring.append frame, fun f hf => (hsees f hf).mono ⟨[frame], rfl⟩ (Nat.le_add_right ..)
      fun n hn => hn⟩
  | finish =>
    obtain ⟨hrunning, hstep⟩ := Option.ite_none_right_eq_some.1 hstep
    cases hstep
    refine ⟨⟨hring.room, hring.frames, hring.dropped, fun n hn => ?_⟩, fun f hf => ?_⟩
    · cases hn
      exact Nat.le_refl _
    · refine (hsees f hf).mono ⟨[], (List.append_nil _).symm⟩ (Nat.le_refl _) fun n hn => ?_
      rw [hrunning] at hn
      cases hn
  | attach =>
    cases hstep
    refine ⟨⟨hring.room, hring.frames, hring.dropped, hring.finished⟩, fun f hf => ?_⟩
    rcases List.mem_append.1 hf with hf | hf
    · exact (hsees f hf).mono ⟨[], (List.append_nil _).symm⟩ (Nat.le_refl _) fun n hn => hn
    · obtain rfl := List.mem_singleton.1 hf
      have hnone : (m.log.zipIdx.take m.framesDropped).drop m.framesDropped = [] :=
        List.drop_eq_nil_of_le (List.length_take_le ..)
      refine ⟨Nat.le_refl _, ?_, ?_, ?_, nofun⟩
      · rw [hring.dropped]
        exact Nat.sub_le ..
      · exact List.nil_sublist _
      · dsimp only
        rw [hnone]
        nofun
  | poll i =>
    simp only [missions] at hstep
    split at hstep
    · next f hf =>
        obtain ⟨hopen, hstep⟩ := Option.ite_none_left_eq_some.1 hstep
        cases hstep
        refine ⟨⟨hring.room, hring.frames, hring.dropped, hring.finished⟩, fun f' hf' => ?_⟩
        have hsee : Sees m f' := by
          rcases List.mem_or_eq_of_mem_set hf' with hf' | rfl
          · exact hsees f' hf'
          · exact (hsees f (List.mem_of_getElem? hf)).poll hring (by simpa using hopen)
        exact hsee.mono ⟨[], (List.append_nil _).symm⟩ (Nat.le_refl _) fun n hn => hn
    · cases hstep

/-- **A follower yields the frames in order, each once.** Of those from its start to its cursor it
    lacks only frames that have fallen off the ring, so none as long as the ring has had room for
    all, and it ends only after every frame that was appended while the mission ran. -/
theorem follower_delivers {as : List (Label φ)}
    (hrun : (missions (max 1 frameBuffer)).exec {} as = some m)
    (hf : f ∈ m.followers) :
    (f.delivered.map Prod.fst).Sublist m.log
      ∧ (∀ i, f.start ≤ i → i < f.cursor → i ∉ f.delivered.map Prod.snd →
        i + max 1 frameBuffer < m.log.length)
      ∧ (m.log.length ≤ max 1 frameBuffer →
        f.delivered.map Prod.fst = (m.log.take f.cursor).drop f.start)
      ∧ (f.ended = true → ∃ n ∈ m.finished, n ≤ f.cursor) := by
  have hinit : Kept (max 1 frameBuffer) ({} : Mission φ) :=
    ⟨⟨Nat.lt_of_lt_of_le Nat.zero_lt_one (Nat.le_max_left ..), rfl, (Nat.zero_sub _).symm, nofun⟩,
      nofun⟩
  obtain ⟨hring, hsees⟩ := (missions (max 1 frameBuffer)).exec_invariant (C := fun _ _ => True)
    (fun _ _ _ h _ hstep => h.step hstep) hinit (.of_forall _ _ fun _ _ => trivial) hrun
  have hsee := hsees f hf
  have hlog : m.log.zipIdx.map Prod.fst = m.log := List.zipIdx_map_fst ..
  have hpart : ((m.log.zipIdx.take f.cursor).drop f.start).map Prod.fst
      = (m.log.take f.cursor).drop f.start := by
    rw [List.map_drop, List.map_take, hlog]
  have hdropped := hring.dropped
  refine ⟨?_, fun i hstart hcursor hnot => ?_, fun hroom => ?_, hsee.ended⟩
  · have hsub := hsee.order.map Prod.fst
    rw [hpart] at hsub
    exact hsub.trans ((List.drop_sublist ..).trans (List.take_sublist ..))
  · have hlength : i < m.log.length := Nat.lt_of_lt_of_le hcursor hsee.cursor
    have hmem : (m.log[i], i) ∈ (m.log.zipIdx.take f.cursor).drop f.start := by
      refine List.mem_of_getElem? (i := i - f.start) ?_
      rw [List.getElem?_drop, Nat.add_sub_cancel' hstart, List.getElem?_take_of_lt hcursor,
        List.getElem?_zipIdx,
        List.getElem?_eq_getElem hlength]
      simp
    rcases hsee.missed _ hmem with hdelivered | hlt
    · exact absurd (List.mem_map_of_mem hdelivered) hnot
    · have : i < m.framesDropped := hlt
      omega
  · have hall : ∀ p ∈ (m.log.zipIdx.take f.cursor).drop f.start, p ∈ f.delivered := by
      intro p hp
      refine (hsee.missed p hp).resolve_right fun hlt => ?_
      omega
    have hnodup : ((m.log.zipIdx.take f.cursor).drop f.start).Nodup :=
      ((List.nodup_zipIdx_map_snd m.log).of_map _).sublist
        ((List.drop_sublist ..).trans (List.take_sublist ..))
    rw [hsee.order.eq_of_length_le (hnodup.subperm hall).length_le, hpart]

theorem follower_delivers_lagging :
    ∃ m f, (missions 2).exec {} [.attach, .append 1, .append 2, .append 3, .poll 0, .finish,
      .poll 0] = some m
      ∧ m.followers = [f] ∧ f.delivered.map Prod.fst = [2, 3] ∧ f.ended = true
      ∧ (f.delivered.map Prod.fst).Sublist m.log ∧ ∃ n ∈ m.finished, n ≤ f.cursor := by
  have hrun : (missions (max 1 2)).exec ({} : Mission Nat)
      [.attach, .append 1, .append 2, .append 3, .poll 0, .finish, .poll 0] = some _ := rfl
  have hdelivers := follower_delivers hrun List.mem_cons_self
  exact ⟨_, _, hrun, rfl, rfl, rfl, hdelivers.1, hdelivers.2.2.2 rfl⟩

end Himmy.Missions
