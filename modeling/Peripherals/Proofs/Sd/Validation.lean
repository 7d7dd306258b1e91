import Peripherals.Proofs.Sd.Completion

/-! A request for sectors is looked at before it is carried out. One that is refused leaves
everything as it was, and one that is carried out comes to no error about its size. -/

namespace Peripherals.Sd

variable {config : Config} {direction : Direction} {buffer buffer' : Buffer} {sector : UInt32}
  {count device : UInt16} {result : Except BiosError Unit} {d d' : Driver} {t : History}

/-- The sectors of a request fail with no error about their size. -/
theorem accessSectors_fails {outcome : Except Error Unit} {arrived : Array UInt32}
    (hsize : d.blockSize = sectorSize) (hcount : count ≠ 0)
    (h : Runs (accessBlocks config (direction.transfer buffer (count.toNat * sectorWords)) sector)
      d t (outcome, arrived) d') :
    ∀ e, outcome = .error e → e.isOfSize = false :=
  ((accessSectors_ends (E := fun e => e.isOfSize = false) (fun _ he => he) (.inr hsize)
    hcount).runs h).2

/-- Every request for sectors is answered. One that names another device, asks for no sectors,
writes where all writes are refused, or has a buffer that is too small or not aligned is answered in
this order of reasons; it asks nothing of the controller, and leaves the driver and the buffer as
they were. Any other ends with success, or with a read fault where it reads and a write fault where
it writes, and never for the size of the transfer: neither with an error for it, nor with a report
of one. -/
theorem readWrite_validates (hd : Reachable config d) :
    (∀ (σ : Type) (machine : Device port σ), (∀ o s, (machine o s).isSome) → ∀ s,
      (((readWrite config direction buffer sector count device).run d).run machine s).isSome) ∧
    ∀ t result buffer' d',
      Runs (readWrite config direction buffer sector count device) d t (result, buffer') d' →
        (∀ answer, refusal? config direction buffer count device = some answer →
          result = answer ∧ buffer' = buffer ∧ d' = d ∧ ∀ e ∈ t, ∃ n, e = noteOf n) ∧
        (refusal? config direction buffer count device = none →
          (direction = .read → result = .ok () ∨ result = .error .readFault) ∧
          (direction = .write → result = .ok () ∨ result = .error .writeFault) ∧
          ∀ t1 outcome arrived d1, Runs (accessBlocks config
            (direction.transfer buffer (count.toNat * sectorWords)) sector) d t1
              (outcome, arrived) d1 →
            outcome ≠ .error .tooManyBlocks ∧ outcome ≠ .error .emptyTransfer) ∧
        ∀ n, noteOf n ∈ t → n.error? ≠ some .tooManyBlocks ∧ n.error? ≠ some .emptyTransfer := by
  have hends : Ends (fun e => e.isOfSize = false) (fun _ => True)
      (readWrite config direction buffer sector count device) d :=
    readWrite_ends (fun _ he => he) (.inr hd.blockSize)
  refine ⟨fun σ machine hanswers s => hends.run_isSome hanswers s, fun t result buffer' d' h => ?_⟩
  refine ⟨fun answer hrefused => ?_, fun haccepted => ?_, fun n hn => ?_⟩
  · obtain ⟨hresult, rfl, hnotes⟩ := readWrite_refused hrefused h
    obtain ⟨rfl, rfl⟩ := Prod.mk.inj hresult
    exact ⟨rfl, rfl, rfl, hnotes⟩
  · have hanswer : result = .ok () ∨ result = .error direction.fault := by
      obtain ⟨outcome, arrived, t1, t2, -, -, -, ⟨-, hok, -⟩ | ⟨e, -, hfault, -⟩⟩ :=
        readWrite_accepted haccepted h
      · exact .inl hok
      · exact .inr hfault
    obtain ⟨-, hcount, -, -⟩ := not_refused haccepted
    refine ⟨?_, ?_, fun t1 outcome arrived d1 h1 => ?_⟩
    · rintro rfl
      exact hanswer
    · rintro rfl
      exact hanswer
    have hfails := accessSectors_fails hd.blockSize hcount h1
    exact ⟨fun he => absurd (hfails _ he) (by decide), fun he => absurd (hfails _ he) (by decide)⟩
  · have hreports := (hends.runs h).1 _ hn
    exact ⟨fun he => absurd (hreports _ he) (by decide),
      fun he => absurd (hreports _ he) (by decide)⟩

theorem readWrite_validates_protected :
    ∃ t result buffer' d', Reachable {} {} ∧
      Runs (readWrite {} .write ⟨2, #[1]⟩ 3 1 0) {} t (result, buffer') d' ∧
      result = .error .writeProtected ∧ buffer' = ⟨2, #[1]⟩ ∧ d' = {} ∧
      ∀ e ∈ t, ∃ n, e = noteOf n := by
  obtain ⟨t, ⟨result, buffer'⟩, d', hrun, -⟩ :
      ∃ t a d', Runs (readWrite {} .write ⟨2, #[1]⟩ 3 1 0) {} t a d' ∧ true = true :=
    exists_runs (P := fun _ _ _ => true)
      (by decide +kernel : ((Prog.run (promptCard [])
        ((readWrite {} .write ⟨2, #[1]⟩ 3 1 0).run {}) 0).any _) = true)
  obtain ⟨hrefused, -⟩ := (readWrite_validates (reachable_start {})).2 t result buffer' d' hrun
  exact ⟨t, result, buffer', d', reachable_start _, hrun, hrefused _ rfl⟩

end Peripherals.Sd
