import Xadma.Verify.DescriptorBuffer

/-!
# Which callback completes a request

In interrupt mode a request is completed by the routine that presents it, by the DPC or by
`EvtCancelDma`. None of them looks at what `WdfRequestUnmarkCancelable` answers, so that it is the
order of their steps that has to keep them apart (`arbitrated`). In a run that does, a request goes
through the stages of one routine after the other, and only one of them gets to the completion.
-/

namespace Xadma

open Threads

/-- No request is completed twice or used after its completion, and the transaction is released once
for each time it was initialized. -/
structure CompletedAtMostOnce (s : WdfSide) : Prop where
  once : ∀ id, (s.completions id).length ≤ 1
  released : s.overReleased = false
  untouched : s.lateTouch = false

/-- The steps that keep the routines apart: a cancellation is not under way when the DPC unmarks the
request or when `WdfDmaTransactionExecute` fails, nor does it begin after that failure;
`EvtCancelDma` releases the transaction only behind `XDMA_EngineProgramDma` and not while the DPC
works on the request; the DPC takes up a request only once it is programmed and until it is
released; and the transaction can be initialized. -/
def arbitrated (w : TransferWorld) : TransferLabel → Bool
  | .call _ (.initializeUsingRequest _) status => ntSuccess status
  | .call (.dispatch id) .execute (.error _) => !w.wdf.cancelled id
  | .start (.cancel id) _ => !w.wdf.executeFailed id
  | .call (.cancel id) .release _ => w.wdf.programmed id && w.wdf.processing != some id
  | .call .dpc (.getRequest .processTransfer) (some id) => w.wdf.programmed id && w.wdf.held
  | .call .dpc (.unmarkCancelable id) _ => !w.wdf.cancelled id
  | _ => true

/-- How far a routine is with the request. -/
inductive Stage
  | presented
  | initialized
  | marked
  | failing
  | failed
  | working
  | claimed
  | released
  | pending
  | givenUp

/-- The thread whose routine it is. -/
def Stage.owner (id : Nat) : Stage → TransferThread
  | presented | initialized | marked | failing | failed => .dispatch id
  | working | claimed | released => .dpc
  | pending | givenUp => .cancel id

def Stage.Spec (s : WdfSide) (id : Nat) : Stage → Prop
  | presented => s.held = false ∧ s.programmed id = false ∧ s.cancelable id = false ∧
      s.cancelled id = false
  | initialized => s.held = true ∧ s.programmed id = false ∧ s.cancelable id = false ∧
      s.cancelled id = false
  | marked => s.held = true ∧ s.programmed id = false
  | failing => s.held = true ∧ s.programmed id = false ∧ s.cancelled id = false ∧
      (s.cancelable id = true → s.executeFailed id = true)
  | failed => s.held = false ∧ s.programmed id = false ∧ s.cancelled id = false ∧
      (s.cancelable id = true → s.executeFailed id = true)
  | working => s.held = true ∧ s.programmed id = true ∧ s.processing = some id
  | claimed => s.held = true ∧ s.programmed id = true ∧ s.processing = some id ∧
      s.cancelled id = false ∧ s.cancelable id = false
  | released => s.held = false ∧ s.programmed id = true ∧ s.processing = some id ∧
      s.cancelled id = false ∧ s.cancelable id = false
  | pending => s.held = true ∧ s.cancelled id = true ∧ s.executeFailed id = false
  | givenUp => s.held = false ∧ s.cancelled id = true ∧ s.programmed id = true ∧
      s.processing ≠ some id

/-- The request is the one that the queue waits for. -/
structure Current (s : WdfSide) (id : Nat) : Prop where
  last : id + 1 = s.presented
  uncompleted : s.completions id = []

structure Stage.At (st : Stage) (s : WdfSide) (id : Nat) : Prop extends Current s id where
  spec : st.Spec s id

structure WdfInv (s : WdfSide) : Prop extends CompletedAtMostOnce s where
  completed : ∀ k, k + 1 < s.presented → s.completions k ≠ []
  fresh : ∀ k, s.presented ≤ k → s.completions k = [] ∧ s.programmed k = false ∧
    s.cancelable k = false ∧ s.cancelled k = false
  bound : s.held = true → ∃ id, s.bound = some id ∧ id + 1 = s.presented ∧ s.completions id = []
  markable : ∀ k, s.cancelable k = true → s.cancelled k = false → s.executeFailed k = false →
    s.completions k = [] → s.held = true

/-- A thread relies on its own stages. -/
def WdfRely (t : TransferThread) (s s' : WdfSide) : Prop :=
  ∀ (st : Stage) id, st.owner id = t → st.At s id → st.At s' id

variable {s s' : WdfSide} {t u : TransferThread} {id k : Nat} {st st' : Stage}

theorem Current.unique (h : Current s id) (h' : Current s k) : k = id :=
  Nat.succ.inj (h'.last.trans h.last.symm)

theorem Current.ne_of_le (h : Current s id) (hk : s.presented ≤ k) : k ≠ id := by
  have := h.last
  omega

theorem WdfInv.bound_eq (hi : WdfInv s) (h : Current s id) (hheld : s.held = true) :
    s.bound = some id := by
  obtain ⟨k, hk, hlast, huncompleted⟩ := hi.bound hheld
  rw [hk, h.unique ⟨hlast, huncompleted⟩]

/-- A step that leaves alone whatever the stages are about. -/
theorem WdfRely.of_current (h : Current s id) (hlast : s'.presented = s.presented)
    (huncompleted : s'.completions id = [])
    (hspec : ∀ st : Stage, st.owner id = t → st.Spec s id → st.Spec s' id) : WdfRely t s s' := by
  intro st k hst hat
  obtain rfl := h.unique hat.toCurrent
  exact ⟨⟨h.last.trans hlast.symm, huncompleted⟩, hspec st hst hat.spec⟩

/-- What a stage says about the request depends on whose it is. -/
theorem Stage.Spec.owner_cases (h : st.Spec s id) :
    st.owner id = .dispatch id ∧ s.programmed id = false ∨
    st.owner id = .dpc ∧ s.programmed id = true ∧ s.processing = some id ∨
    st.owner id = .cancel id ∧ s.cancelled id = true := by
  cases st with
  | presented | initialized | failing | failed => exact .inl ⟨rfl, h.2.1⟩
  | marked => exact .inl ⟨rfl, h.2⟩
  | working => exact .inr (.inl ⟨rfl, h.2⟩)
  | claimed | released => exact .inr (.inl ⟨rfl, h.2.1, h.2.2.1⟩)
  | pending | givenUp => exact .inr (.inr ⟨rfl, h.2.1⟩)

/-- A step of the only thread that is at a stage. -/
theorem WdfRely.of_unique (h : st.At s id)
    (hunique : ∀ st' : Stage, st'.Spec s id → st'.owner id = st.owner id)
    (ht : t ≠ st.owner id) : WdfRely t s s' := by
  intro st' k hst' hat
  obtain rfl := h.toCurrent.unique hat.toCurrent
  exact absurd (hst'.symm.trans (hunique st' hat.spec)) ht

/-- Without a cancellation only one thread is at a stage. -/
theorem WdfRely.of_not_cancelled (h : st.At s id) (hcancelled : s.cancelled id = false)
    (ht : t ≠ st.owner id) : WdfRely t s s' := by
  refine .of_unique h (fun st' h' => ?_) ht
  rcases h.spec.owner_cases with ⟨hown, hprog⟩ | ⟨hown, hprog, -⟩ | ⟨-, htrue⟩
  · rcases h'.owner_cases with ⟨hown', -⟩ | ⟨-, htrue, -⟩ | ⟨-, htrue⟩
    · exact hown'.trans hown.symm
    · cases hprog.symm.trans htrue
    · cases hcancelled.symm.trans htrue
  · rcases h'.owner_cases with ⟨-, hfalse⟩ | ⟨hown', -⟩ | ⟨-, htrue⟩
    · cases hprog.symm.trans hfalse
    · exact hown'.trans hown.symm
    · cases hcancelled.symm.trans htrue
  · cases hcancelled.symm.trans htrue

/-- A cancellation is alone with a programmed request that the DPC does not work on. -/
theorem WdfRely.of_givenUp (h : st.At s id) (hst : st.owner id = .cancel id)
    (hprog : s.programmed id = true) (hprocessing : s.processing ≠ some id)
    (ht : t ≠ st.owner id) : WdfRely t s s' := by
  refine .of_unique h (fun st' h' => ?_) ht
  rcases h'.owner_cases with ⟨-, hfalse⟩ | ⟨-, -, hsome⟩ | ⟨hown', -⟩
  · cases hprog.symm.trans hfalse
  · exact absurd hsome hprocessing
  · exact hown'.trans hst.symm

/-! ## What the calls do to the stages -/

theorem WdfInv.current_of_cancelable (hi : WdfInv s) (h : s.cancelable k = true)
    (huncompleted : s.completions k = []) : Current s k := by
  refine ⟨?_, huncompleted⟩
  rcases Nat.lt_trichotomy (k + 1) s.presented with hlt | heq | hgt
  · exact absurd huncompleted (hi.completed k hlt)
  · exact heq
  · have := (hi.fresh k (Nat.le_of_lt_succ hgt)).2.2.1
    rw [this] at h
    cases h

theorem WdfInv.present (hi : WdfInv s) (hid : id = s.presented)
    (hall : ∀ k < id, s.completions k ≠ []) :
    WdfInv { s with presented := id + 1 } ∧ (∀ u, WdfRely u s { s with presented := id + 1 }) ∧
      Stage.presented.At { s with presented := id + 1 } id := by
  subst hid
  have hnone : ∀ k, ¬ Current s k := fun k h =>
    hall k (h.last ▸ Nat.lt_succ_self k) h.uncompleted
  have hheld : s.held = false := by
    by_contra h
    obtain ⟨k, -, hlast, huncompleted⟩ := hi.bound (by simpa using h)
    exact hnone k ⟨hlast, huncompleted⟩
  obtain ⟨huncompleted, hprog, hcancelable, hcancelled⟩ := hi.fresh s.presented le_rfl
  refine ⟨{ hi with completed := ?_, fresh := ?_, bound := ?_ }, ?_, ⟨rfl, huncompleted⟩, ?_⟩
  · exact fun k hk => hall k (Nat.lt_of_succ_lt_succ hk)
  · exact fun k hk => hi.fresh k (Nat.le_of_succ_le hk)
  · intro h
    rw [hheld] at h
    cases h
  · exact fun u st k _ hat => absurd hat.toCurrent (hnone k)
  · exact ⟨hheld, hprog, hcancelable, hcancelled⟩

theorem WdfInv.bindRequest (hi : WdfInv s) (h : Stage.presented.At s id) :
    WdfInv (s.bindRequest id) ∧ (∀ u, u ≠ .dispatch id → WdfRely u s (s.bindRequest id)) ∧
      Stage.initialized.At (s.bindRequest id) id := by
  have hat := h
  obtain ⟨hcur, -, hprog, hcancelable, hcancelled⟩ := h
  exact ⟨{ hi with bound := fun _ => ⟨id, rfl, hcur.last, hcur.uncompleted⟩,
                   markable := fun _ _ _ _ _ => rfl },
    fun u hu => .of_not_cancelled hat hcancelled hu,
    ⟨hcur.last, hcur.uncompleted⟩, rfl, hprog, hcancelable, hcancelled⟩

theorem WdfInv.mark (hi : WdfInv s) (h : Stage.initialized.At s id) :
    WdfInv { s with cancelable := Function.update s.cancelable id true } ∧
      (∀ u, u ≠ .dispatch id → WdfRely u s
        { s with cancelable := Function.update s.cancelable id true }) ∧
      Stage.marked.At { s with cancelable := Function.update s.cancelable id true } id := by
  have hat := h
  obtain ⟨hcur, hheld, hprog, -, hcancelled⟩ := h
  refine ⟨{ hi with fresh := fun k hk => ?_, markable := fun _ _ _ _ _ => hheld },
    fun u hu => .of_not_cancelled hat hcancelled hu,
    ⟨hcur.last, hcur.uncompleted⟩, hheld, hprog⟩
  simpa only [Function.update_of_ne (hcur.ne_of_le hk)] using hi.fresh k hk

theorem WdfInv.executeFail (hi : WdfInv s) (h : Stage.marked.At s id)
    (hcancelled : s.cancelled id = false) :
    WdfInv { s with executeFailed := Function.update s.executeFailed id true } ∧
      (∀ u, u ≠ .dispatch id → WdfRely u s
        { s with executeFailed := Function.update s.executeFailed id true }) ∧
      Stage.failing.At { s with executeFailed := Function.update s.executeFailed id true } id := by
  have hat := h
  obtain ⟨hcur, hheld, hprog⟩ := h
  exact ⟨{ hi with markable := fun _ _ _ _ _ => hheld },
    fun u hu => .of_not_cancelled hat hcancelled hu,
    ⟨hcur.last, hcur.uncompleted⟩, hheld, hprog, hcancelled, by simp⟩

/-- The thread that presents the request has programmed it. -/
theorem WdfInv.program (hi : WdfInv s) (h : Stage.marked.At s id) :
    WdfInv { s with programmed := Function.update s.programmed id true } ∧
      ∀ u, u ≠ .dispatch id → WdfRely u s
        { s with programmed := Function.update s.programmed id true } := by
  obtain ⟨hcur, hheld, hprog⟩ := h
  refine ⟨{ hi with fresh := fun k hk => ?_ },
    fun u hu => .of_current hcur rfl hcur.uncompleted fun st hst hspec => ?_⟩
  · simpa only [Function.update_of_ne (hcur.ne_of_le hk)] using hi.fresh k hk
  · cases st <;> simp_all [Stage.owner, Stage.Spec]

/-- The DPC takes up the request of the transaction. -/
theorem WdfInv.takeUp (hi : WdfInv s) (hid : s.bound = some id) (hprog : s.programmed id = true)
    (hheld : s.held = true) :
    WdfInv { s with processing := some id } ∧
      (∀ u, u ≠ .dpc → WdfRely u s { s with processing := some id }) ∧
      Stage.working.At { s with processing := some id } id := by
  obtain ⟨k, hk, hlast, huncompleted⟩ := hi.bound hheld
  obtain rfl : k = id := Option.some.inj (hk.symm.trans hid)
  have hcur : Current s k := ⟨hlast, huncompleted⟩
  refine ⟨{ hi with }, fun u hu => .of_current hcur rfl hcur.uncompleted fun st hst hspec => ?_,
    ⟨hcur.last, hcur.uncompleted⟩, hheld, hprog, rfl⟩
  cases st <;> simp_all [Stage.owner, Stage.Spec]

/-- The DPC works on no request, or no longer uses it. -/
theorem WdfInv.leave (hi : WdfInv s) :
    WdfInv { s with processing := none } ∧
      ∀ u, u ≠ .dpc → WdfRely u s { s with processing := none } := by
  refine ⟨{ hi with }, fun u hu st k hst hat => ⟨⟨hat.last, hat.uncompleted⟩, ?_⟩⟩
  have hspec := hat.spec
  cases st <;> simp_all [Stage.owner, Stage.Spec]

theorem WdfInv.claim (hi : WdfInv s) (h : Stage.working.At s id)
    (hcancelled : s.cancelled id = false) :
    WdfInv { s with cancelable := Function.update s.cancelable id false } ∧
      (∀ u, u ≠ .dpc → WdfRely u s
        { s with cancelable := Function.update s.cancelable id false }) ∧
      Stage.claimed.At { s with cancelable := Function.update s.cancelable id false } id := by
  have hat := h
  obtain ⟨hcur, hheld, hprog, hprocessing⟩ := h
  refine ⟨{ hi with fresh := fun k hk => ?_, markable := fun _ _ _ _ _ => hheld },
    fun u hu => .of_not_cancelled hat hcancelled hu,
    ⟨hcur.last, hcur.uncompleted⟩, hheld, hprog, hprocessing, hcancelled, by simp⟩
  simpa only [Function.update_of_ne (hcur.ne_of_le hk)] using hi.fresh k hk

theorem WdfInv.cancel (hi : WdfInv s) (hcancelable : s.cancelable id = true)
    (hcancelled : s.cancelled id = false) (huncompleted : s.completions id = [])
    (hfailed : s.executeFailed id = false) :
    WdfInv { s with cancelled := Function.update s.cancelled id true } ∧
      (∀ u, u ≠ .cancel id → WdfRely u s
        { s with cancelled := Function.update s.cancelled id true }) ∧
      Stage.pending.At { s with cancelled := Function.update s.cancelled id true } id := by
  have hcur := hi.current_of_cancelable hcancelable huncompleted
  have hheld := hi.markable id hcancelable hcancelled hfailed huncompleted
  refine ⟨{ hi with fresh := fun k hk => ?_, markable := fun _ _ _ _ _ => hheld },
    fun u hu => .of_current hcur rfl huncompleted fun st hst hspec => ?_,
    ⟨hcur.last, huncompleted⟩, hheld, by simp, hfailed⟩
  · simpa only [Function.update_of_ne (hcur.ne_of_le hk)] using hi.fresh k hk
  · cases st <;> simp_all [Stage.owner, Stage.Spec]

theorem WdfInv.unmarkCancelled (hi : WdfInv s) (h : Stage.pending.At s id) :
    WdfInv { s with cancelable := Function.update s.cancelable id false } ∧
      (∀ u, u ≠ .cancel id → WdfRely u s
        { s with cancelable := Function.update s.cancelable id false }) ∧
      Stage.pending.At { s with cancelable := Function.update s.cancelable id false } id := by
  obtain ⟨hcur, hheld, hcancelled, hfailed⟩ := h
  refine ⟨{ hi with fresh := fun k hk => ?_, markable := fun _ _ _ _ _ => hheld },
    fun u hu => .of_current hcur rfl hcur.uncompleted fun st hst hspec => ?_,
    ⟨hcur.last, hcur.uncompleted⟩, hheld, hcancelled, hfailed⟩
  · simpa only [Function.update_of_ne (hcur.ne_of_le hk)] using hi.fresh k hk
  · cases st <;> simp_all [Stage.owner, Stage.Spec]

theorem WdfInv.release {status : NtStatus} (hi : WdfInv s) (hcur : Current s id)
    (hheld : s.held = true)
    (hclosed : s.cancelable id = true → s.cancelled id = false → s.executeFailed id = true) :
    WdfInv (s.release status) := by
  refine { hi with released := ?_, bound := fun h => (nomatch h), markable := ?_ }
  · simp [WdfSide.release, hheld, hi.released]
  · intro k hcancelable hcancelled hfailed huncompleted
    obtain rfl := hcur.unique (hi.current_of_cancelable hcancelable huncompleted)
    have htrue : (s.release status).executeFailed k = true := hclosed hcancelable hcancelled
    rw [htrue] at hfailed
    cases hfailed

theorem WdfInv.complete {result : NtStatus × Nat} (hi : WdfInv s) (hcur : Current s id)
    (hheld : s.held = false) : WdfInv (s.complete id result) := by
  have hother : ∀ k, k ≠ id → (s.complete id result).completions k = s.completions k :=
    fun k hk => Function.update_of_ne hk ..
  have hself : (s.complete id result).completions id = [result] := by
    simp [WdfSide.complete, hcur.uncompleted]
  refine { hi with once := fun k => ?_, completed := fun k hk => ?_, fresh := fun k hk => ?_,
                   bound := fun h => ?_, markable := fun k hcancelable hcancelled hfailed h => ?_ }
  · by_cases hk : k = id
    · subst hk
      rw [hself]
      exact le_rfl
    · rw [hother k hk]
      exact hi.once k
  · by_cases hid : k = id
    · subst hid
      rw [hself]
      simp
    · rw [hother k hid]
      exact hi.completed k hk
  · rw [hother k (hcur.ne_of_le hk)]
    exact hi.fresh k hk
  · rw [show s.held = true from h] at hheld
    cases hheld
  · have hk : k ≠ id := by
      rintro rfl
      rw [hself] at h
      cases h
    rw [hother k hk] at h
    exact hi.markable k hcancelable hcancelled hfailed h

/-- Each routine releases the transaction at a stage that keeps the others out. -/
theorem WdfInv.releaseAt {status : NtStatus} (hi : WdfInv s) (h : st.At s id)
    (hst : st = .failing ∧ st' = .failed ∨ st = .claimed ∧ st' = .released ∨
      st = .pending ∧ st' = .givenUp ∧ s.programmed id = true ∧ s.processing ≠ some id) :
    WdfInv (s.release status) ∧
      (∀ u, u ≠ st.owner id → WdfRely u s (s.release status)) ∧
      st'.At (s.release status) id := by
  have hcur := h.toCurrent
  have hspec := h.spec
  have hheld : s.held = true := by
    rcases hst with ⟨rfl, -⟩ | ⟨rfl, -⟩ | ⟨rfl, -⟩ <;> exact hspec.1
  refine ⟨hi.release hcur hheld ?_, fun u hu => ?_, ⟨hcur.last, hcur.uncompleted⟩, ?_⟩
  · intro hcancelable hcancelled
    rcases hst with ⟨rfl, -⟩ | ⟨rfl, -⟩ | ⟨rfl, -⟩
    · exact hspec.2.2.2 hcancelable
    · cases hspec.2.2.2.2.symm.trans hcancelable
    · cases hspec.2.1.symm.trans hcancelled
  · rcases hst with ⟨rfl, -⟩ | ⟨rfl, -⟩ | ⟨rfl, -, hprog, hprocessing⟩
    · exact .of_not_cancelled h hspec.2.2.1 hu
    · exact .of_not_cancelled h hspec.2.2.2.1 hu
    · exact .of_givenUp h rfl hprog hprocessing hu
  · rcases hst with ⟨rfl, rfl⟩ | ⟨rfl, rfl⟩ | ⟨rfl, rfl, hprog, hprocessing⟩
    · exact ⟨rfl, hspec.2⟩
    · exact ⟨rfl, hspec.2⟩
    · exact ⟨rfl, hspec.2.1, hprog, hprocessing⟩

theorem WdfInv.completeAt (hi : WdfInv s) (h : st.At s id)
    (hst : st = .failed ∨ st = .released ∨ st = .givenUp) (result : NtStatus × Nat) :
    WdfInv (s.complete id result) ∧
      ∀ u, u ≠ st.owner id → WdfRely u s (s.complete id result) := by
  have hcur := h.toCurrent
  have hspec := h.spec
  have hheld : s.held = false := by
    rcases hst with rfl | rfl | rfl <;> exact hspec.1
  refine ⟨hi.complete hcur hheld, fun u hu => ?_⟩
  rcases hst with rfl | rfl | rfl
  · exact .of_not_cancelled h hspec.2.2.1 hu
  · exact .of_not_cancelled h hspec.2.2.2.1 hu
  · exact .of_givenUp h rfl hspec.2.2.1 hspec.2.2.2 hu

end Xadma
