import Tokilake.Smux.Handles

/-! # Which sessions have faithful handles

A `SYN` puts a new handle under its id without looking whether there is one, and so does `open`.

* `faithful_iff`: when each handle gets the bytes of its stream. -/

namespace Tokilake.Smux.Faithful

open Lib Smux.Wire Smux.Handles Function
open Smux.Session (Config)

variable {cfg : Config} {id : UInt32} {s : State} {f : Frame} {k : ℕ}

/-! ### Which events keep the table faithful -/

lemma faithful_init (isClient : Bool) : Faithful (init isClient) where
  bytes := fun _ hk => absurd hk (Nat.not_lt_zero _)
  connected := fun _ _ hk => absurd hk (Nat.not_lt_zero _)

lemma faithful_stop (hs : Faithful s) : Faithful s.stop where
  bytes := hs.bytes
  connected := by rintro ⟨⟩

lemma faithful_register (hwf : Wf s) (hs : Faithful s) (id : UInt32) :
    Faithful (s.register id) ↔ (s.alive = true → s.Free id) := by
  have hold : ∀ k < s.count, (s.register id).handle k = s.handle k := by
    intro k hk
    have hne : k ≠ s.count := by omega
    simp [State.register, hne]
  have hnew : (s.register id).handle s.count = { id := id } := by simp [State.register]
  have htable : (s.register id).table id = some s.count := by simp [State.register]
  constructor
  · intro ht halive k hk
    obtain ⟨hlt, hid, -, hfd⟩ := hwf id k hk
    by_contra hdropped
    have hin := ht.connected halive k (Nat.lt_succ_of_lt hlt)
    rw [hold k hlt, hid, htable] at hin
    have heq : s.count = k := Option.some.inj (hin (by simpa using hdropped) hfd)
    omega
  · intro hfree
    refine ⟨fun k hk hd => ?_, fun halive k hk hd hfd => ?_⟩
    · rcases Nat.lt_succ_iff_lt_or_eq.mp hk with hlt | rfl
      · rw [hold k hlt] at hd ⊢
        exact hs.bytes k hlt hd
      · rw [hnew]
        rfl
    · rcases Nat.lt_succ_iff_lt_or_eq.mp hk with hlt | rfl
      · rw [hold k hlt] at hd hfd ⊢
        have hin := hs.connected halive k hlt hd hfd
        have hne : (s.handle k).id ≠ id := by
          intro heq
          rw [heq] at hin
          rw [hfree halive k hin] at hd
          cases hd
        simpa [State.register, hne] using hin
      · rw [hnew]
        exact htable

section

variable (hs : Faithful s)
include hs

lemma faithful_update {h' : Handle} (hid : h'.id = (s.handle k).id)
    (hseen : h'.seen = (s.handle k).seen)
    (hobt : h'.dropped = false →
      (s.handle k).dropped = false ∧ h'.obtainable = (s.handle k).obtainable) :
    Faithful { s with handle := update s.handle k h' } := by
  refine ⟨fun j hj hd => ?_, fun halive j hj hd hfd => ?_⟩
  · by_cases hjk : j = k
    · subst hjk
      simp only [update_self] at hd ⊢
      rw [(hobt hd).2, hid, hseen]
      exact hs.bytes j hj (hobt hd).1
    · simp only [update_of_ne hjk] at hd ⊢
      exact hs.bytes j hj hd
  · by_cases hjk : j = k
    · subst hjk
      simp only [update_self, hid, hseen] at hd hfd ⊢
      exact hs.connected halive j hj (hobt hd).1 hfd
    · simp only [update_of_ne hjk] at hd hfd ⊢
      exact hs.connected halive j hj hd hfd

lemma faithful_read (k n : ℕ) : Faithful (s.read k n) := by
  have hsame := sameStream_read (s.table (s.handle k).id = some k) (s.handle k) n
  refine faithful_update hs hsame.id hsame.seen fun hd => ⟨?_, hsame.obtainable⟩
  rw [← hsame.dropped]
  exact hd

lemma faithful_drop (k : ℕ) : Faithful (s.drop k) := faithful_update hs rfl rfl (by rintro ⟨⟩)

/-! ### Frames -/

lemma see_bytes (hk : k < s.count) (hd : (s.handle k).dropped = false)
    (hf : isPsh (s.handle k).id f = true → finished (s.handle k).id (s.handle k).seen = true) :
    (s.handle k).obtainable = (expected (s.handle k).id ((s.handle k).seen ++ [f])).flatten := by
  have hnone : ¬ (finished (s.handle k).id (s.handle k).seen = false ∧
      isPsh (s.handle k).id f = true) := by
    rintro ⟨hfd, hpsh⟩
    rw [hf hpsh] at hfd
    cases hfd
  rw [expected_append, if_neg hnone, List.append_nil]
  exact hs.bytes k hk hd

lemma faithful_see (hpsh : f.cmd ≠ cmdPsh) : Faithful (s.see f) := by
  refine ⟨fun k hk hd => see_bytes hs hk hd (by simp [isPsh, hpsh]), fun halive k hk hd hfd => ?_⟩
  have hseen : finished (s.handle k).id ((s.handle k).seen ++ [f]) = false := hfd
  rw [finished_append, Bool.or_eq_false_iff] at hseen
  exact hs.connected halive k hk hd hseen.1

lemma faithful_fin (hfin : f.cmd = cmdFin) : Faithful ((s.see f).unregister f.streamId) := by
  have hpsh : f.cmd ≠ cmdPsh := by simp [hfin, cmdFin, cmdPsh]
  refine ⟨fun k hk hd => see_bytes hs hk hd (by simp [isPsh, hpsh]), fun halive k hk hd hfd => ?_⟩
  have hseen : finished (s.handle k).id ((s.handle k).seen ++ [f]) = false := hfd
  rw [finished_append, Bool.or_eq_false_iff] at hseen
  have hne : (s.handle k).id ≠ f.streamId := by
    intro heq
    have hyes := hseen.2
    simp [isFin, hfin, heq] at hyes
  have hin := hs.connected halive k hk hd hseen.1
  simpa [State.unregister, State.see, Handle.see, hne] using hin

end

lemma faithful_psh (hwf : Wf s) (hs : Faithful s) (halive : s.alive = true)
    (hpsh : f.cmd = cmdPsh) : Faithful ((s.see f).push f.streamId f.data) := by
  have hfin : f.cmd ≠ cmdFin := by simp [hpsh, cmdFin, cmdPsh]
  have hunf : ∀ k, finished (s.handle k).id ((s.handle k).seen ++ [f]) =
      finished (s.handle k).id (s.handle k).seen := by
    simp [finished_append, isFin, hfin]
  have hcount : ((s.see f).push f.streamId f.data).count = s.count := (push_count_alive ..).1
  have hsame := fun k => push_same (s.see f) f.streamId f.data k
  refine ⟨fun k hk hd => ?_, fun _ k hk hd hfd => ?_⟩
  · rw [hcount] at hk
    rw [(hsame k).2.2] at hd
    rw [(hsame k).1, (hsame k).2.1, push_handle]
    by_cases hin : s.table f.streamId = some k
    · -- the handle in the table is of this stream and has not come to its end
      obtain ⟨-, hid, hfr, hfd⟩ := hwf f.streamId k hin
      have hexp : expected (s.handle k).id ((s.handle k).seen ++ [f]) =
          expected (s.handle k).id (s.handle k).seen ++ [f.data] := by
        rw [expected_append, if_pos (by simp [hid, hfd, isPsh, hpsh])]
      rw [if_pos ⟨hin, hd⟩]
      calc ((s.handle k).see f |>.enqueue f.data).obtainable
          = (s.handle k).obtainable ++ f.data := by
            simp [Handle.remaining, Handle.enqueue, Handle.see, hfr]
        _ = (expected (s.handle k).id ((s.handle k).seen ++ [f])).flatten := by
            rw [hs.bytes k hk hd, hexp, List.flatten_append]
            simp
    · -- a handle that waits for the payload is in the table
      rw [if_neg fun h => hin h.1]
      refine see_bytes hs hk hd fun hp => ?_
      by_contra hfd
      have hid : (s.handle k).id = f.streamId := by simpa [isPsh, hpsh, eq_comm] using hp
      have hconn := hs.connected halive k hk hd (by simpa using hfd)
      rw [hid] at hconn
      exact hin hconn
  · rw [hcount] at hk
    rw [(hsame k).2.2] at hd
    rw [(hsame k).1, (hsame k).2.1] at hfd
    rw [(hsame k).1]
    refine push_table hd (hs.connected halive k hk hd ?_)
    rw [← hunf]
    exact hfd

lemma faithful_dispatch (hwf : Wf s) (hs : Faithful s) (halive : s.alive = true) :
    Faithful ((s.see f).dispatch cfg f) ↔ (f.cmd = cmdSyn → s.Free f.streamId) := by
  unfold State.dispatch
  by_cases hsyn : f.cmd = cmdSyn
  · have hpsh : f.cmd ≠ cmdPsh := by simp [hsyn, cmdSyn, cmdPsh]
    have hfin : f.cmd ≠ cmdFin := by simp [hsyn, cmdSyn, cmdFin]
    rw [if_pos hsyn, faithful_register (wf_see hwf hfin) (faithful_see hs hpsh)]
    have hfree : (s.see f).Free f.streamId ↔ s.Free f.streamId := Iff.rfl
    have halive' : (s.see f).alive = true := halive
    simp only [hfree, halive', hsyn, forall_const]
  · rw [if_neg hsyn]
    refine iff_of_true ?_ fun h => absurd h hsyn
    by_cases hfin : f.cmd = cmdFin
    · rw [if_pos hfin]
      exact faithful_fin hs hfin
    rw [if_neg hfin]
    by_cases hpsh : f.cmd = cmdPsh
    · rw [if_pos hpsh]
      exact faithful_psh hwf hs halive hpsh
    have hsee := faithful_see hs hpsh
    split_ifs
    · exact faithful_stop hsee
    · exact hsee
    · exact hsee

/-! ### Whole runs -/

lemma faithful_step {e : Event} {t : State} (hwf : Wf s) (hs : Faithful s)
    (h : step cfg s e = some t) : Faithful t ↔ Unused cfg s e := by
  cases e with
  | frame f =>
    cases h
    unfold State.recv
    by_cases halive : s.alive = false
    · rw [if_pos halive]
      exact iff_of_true hs fun htrue => absurd halive (by simp [htrue])
    have halive' : s.alive = true := by simpa using halive
    by_cases hversion : f.version = cfg.version
    · rw [if_neg halive, if_neg (by simp [hversion]), faithful_dispatch hwf hs halive']
      simp only [Unused, halive', hversion, forall_const]
    · rw [if_neg halive, if_pos hversion]
      exact iff_of_true (faithful_stop hs) fun _ hv => absurd hv hversion
  | openStream =>
    cases h
    unfold State.openStream
    split_ifs with hroom
    · have hreg := faithful_register hwf hs s.nextStreamId
      refine Iff.trans ?_ (hreg.trans ?_)
      · exact ⟨fun ht => ⟨ht.bytes, ht.connected⟩, fun ht => ⟨ht.bytes, ht.connected⟩⟩
      simp only [Unused, hroom, forall_const]
    · exact iff_of_true hs fun _ hr => absurd hr hroom
  | read k n =>
    cases h
    exact iff_of_true (faithful_read hs k n) trivial
  | drop k =>
    cases h
    exact iff_of_true (faithful_drop hs k) trivial
  | stop =>
    cases h
    exact iff_of_true (faithful_stop hs) trivial

/-- **When handles are faithful**: no `SYN` and no opening names a handle that is held. -/
theorem faithful_iff (cfg : Config) (isClient : Bool) (events : List Event) :
    (Run.Stays (step cfg) Faithful (init isClient) events ↔
      Run.Along (step cfg) (Unused cfg) (init isClient) events) ∧
    ∀ (connected : Bool) (n : ℕ) (h : Handle),
      ∃ m, ((fun h => (h.read connected (n + 1)).2)^[m] h).taken = h.obtainable :=
  ⟨Run.stays_iff_along_of_invariant (Run.of_total fun s e => by cases e <;> exact ⟨_, rfl⟩) wf_step
    faithful_step (wf_init isClient) (faithful_init isClient), reads_all⟩

/-- A second `SYN`: the first handle finds the end without a `FIN`, and the second gets its payload.
-/
theorem replaced : ∃ s, Run.run (step {}) (init false)
        [.frame (Frame.syn 1 1), .frame (Frame.psh 1 1 [97]), .frame (Frame.syn 1 1),
          .frame (Frame.psh 1 1 [98])] = some s ∧
      (s.handle 0).obtainable = [97] ∧ (expected 1 (s.handle 0).seen).flatten = [97, 98] ∧
      s.table 1 = some 1 ∧ (s.handle 1).obtainable = [98] ∧
      (((s.read 0 8).handle 0).read (s.table 1 = some 0) 8).1 = some [] ∧ ¬ Faithful s := by
  refine ⟨_, rfl, by decide, by decide, by decide, by decide, by decide, fun hs => ?_⟩
  exact absurd (hs.bytes 0 (by decide) (by decide)) (by decide)

end Tokilake.Smux.Faithful
