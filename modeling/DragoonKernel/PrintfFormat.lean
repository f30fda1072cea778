import DragoonKernel.PrintfSpec

/-!
`kvprintf` on a format that may end anywhere. A conversion that the NUL cuts off takes the NUL
for its conversion character, and the pointer is advanced past it.
-/

namespace DragoonKernel

/-- The padding ends inside the digit buffer. The sign of a negative number is not put there. -/
def WidthFits (c : BitVec 8) (width : BitVec 32) (length : LengthModifier) (slot : Word) : Prop :=
  c ∈ cString "diuxX" →
    width.toInt ≤
      if (c = byte 'd' ∨ c = byte 'i') ∧ (length.signed slot).toInt < 0 then 65 else 64

/-- No conversion is cut off by the end of the format, and every width fits. The first `taken`
slots of the argument list have been taken. -/
inductive Printable (args : Nat → Word) : Nat → List (BitVec 8) → Prop where
  | done (taken : Nat) : Printable args taken []
  | plain {taken : Nat} {c : BitVec 8} {rest : List (BitVec 8)} (visible : c ≠ byte '%')
      (later : Printable args taken rest) : Printable args taken (c :: rest)
  | conversion {taken : Nat} {spec : List (BitVec 8)} {c : BitVec 8} {rest : List (BitVec 8)}
      (complete : afterModifiers spec = c :: rest)
      (fits : WidthFits c (widthFrom 0 (afterFlag spec))
        (lengthModifier (afterWidth (afterFlag spec))) (args taken))
      (later : Printable args (taken + slotsTaken c) rest) :
      Printable args taken (byte '%' :: spec)

/-- The run ends without a fault, and no place after the NUL has been read. -/
def StaysInFormat (text : Nat → BitVec 8) (args : Nat → Word) (strings : Word → List (BitVec 8))
    (nul : Nat) (printer : Printer) : Prop :=
  ∃ turns final, kvprintf text args strings turns printer = some final ∧
    ∀ place ∈ final.reads, place ≤ nul

section Fits

variable {base : Nat} {isUpper : Bool}

theorem length_numeral_le (isUpper : Bool) (large : 1 < base) (val : Word) :
    (numeral isUpper base val.toNat).length ≤ digitBufSize := by
  rw [numeral, Numeral.length_write, Numeral.digits]
  split
  next => decide
  next =>
    rw [digitBufSize, Nat.digits_length_le_iff large]
    exact Nat.lt_of_lt_of_le val.isLt (Nat.pow_le_pow_left large 64)

theorem printUnsigned_isSome_iff (large : 1 < base) (small : base ≤ 16) (val : Word)
    (width : BitVec 32) {pad : BitVec 8} (plain : pad ≠ newline) :
    (printUnsigned val base width pad isUpper).isSome ↔ width.toInt ≤ 64 := by
  have bound := length_numeral_le isUpper large val
  rw [printUnsigned_eq large small val width plain]
  simp only [digitBufSize, List.length_replicate] at bound ⊢
  split
  next fits => exact iff_of_true rfl (by omega)
  next spills => exact iff_of_false (by simp) (by omega)

theorem toInt_pred {width : BitVec 32} (positive : width.toInt > 0) :
    (width - 1).toInt = width.toInt - 1 := by
  have upper := width.toInt_lt
  rw [BitVec.toInt_sub]
  simp only [BitVec.ofNat_eq_ofNat, BitVec.reduceToInt]
  rw [Int.bmod_eq_of_le] <;> omega

theorem printSigned_isSome_iff (val : Word) (width : BitVec 32) {pad : BitVec 8}
    (plain : pad ≠ newline) :
    (printSigned val width pad).isSome ↔ width.toInt ≤ if val.toInt < 0 then 65 else 64 := by
  unfold printSigned
  split
  next =>
    dsimp only
    rw [Option.isSome_map, printUnsigned_isSome_iff (by decide) (by decide) _ _ plain]
    split
    next positive =>
      rw [toInt_pred positive]
      omega
    next => omega
  next => exact printUnsigned_isSome_iff (by decide) (by decide) _ _ plain

theorem printConversion_isSome_iff (strings : Word → List (BitVec 8)) (c : BitVec 8)
    {pad : BitVec 8} (plain : pad ≠ newline) (width : BitVec 32) (length : LengthModifier)
    (slot : Word) :
    (printConversion strings c pad width length slot).isSome ↔ WidthFits c width length slot := by
  have numeric : c ∈ cString "diuxX" ↔ (c = byte 'd' ∨ c = byte 'i') ∨ c = byte 'u' ∨
      c = byte 'x' ∨ c = byte 'X' := by
    rw [show cString "diuxX" = [byte 'd', byte 'i', byte 'u', byte 'x', byte 'X'] from rfl]
    simp [or_assoc]
  simp only [printConversion, WidthFits, numeric]
  by_cases decimal : c = byte 'd' ∨ c = byte 'i'
  · rw [if_pos decimal, printSigned_isSome_iff _ _ plain]
    simp only [decimal, true_or, true_and, forall_const]
  · simp only [decimal, false_or, false_and, if_false]
    by_cases unsigned : c = byte 'u' ∨ c = byte 'x' ∨ c = byte 'X'
    · simp only [unsigned, forall_const]
      rcases unsigned with rfl | rfl | rfl
      · exact printUnsigned_isSome_iff (by decide) (by decide) _ _ plain
      · exact printUnsigned_isSome_iff (by decide) (by decide) _ _ plain
      · exact printUnsigned_isSome_iff (by decide) (by decide) _ _ plain
    · simp only [unsigned, false_implies, iff_true]
      simp only [not_or] at unsigned
      rw [if_neg unsigned.1, if_neg unsigned.2.1, if_neg unsigned.2.2]
      split
      next =>
        rw [Option.isSome_map, printUnsigned_isSome_iff (by decide) (by decide) _ _ (by decide)]
        decide
      next =>
        split
        · rfl
        · split
          · rfl
          · split <;> rfl

end Fits

section Run

variable {text : Nat → BitVec 8} {args : Nat → Word} {strings : Word → List (BitVec 8)}
  {nul : Nat} {s : List (BitVec 8)} {printer : Printer}

theorem flagPad_plain (s : List (BitVec 8)) : flagPad s ≠ newline := by
  unfold flagPad
  split <;> decide

theorem length_afterModifiers_le (spec : List (BitVec 8)) :
    (afterModifiers spec).length ≤ (afterFlag spec).length := by
  have wide : (afterWidth (afterFlag spec)).length ≤ (afterFlag spec).length :=
    (List.dropWhile_sublist _).length_le
  refine Nat.le_trans ?_ wide
  unfold afterModifiers afterLength
  split
  · split <;> simp only [List.length_tail] <;> omega
  · exact Nat.le_refl _

theorem length_afterFlag_le (spec : List (BitVec 8)) : (afterFlag spec).length ≤ spec.length := by
  unfold afterFlag
  split <;> simp

theorem parseFlag_reads (text : Nat → BitVec 8) (printer : Printer) :
    printer.reads ⊆ (parseFlag text printer).1.reads := by
  unfold parseFlag
  dsimp only
  split <;> exact List.subset_append_left _ _

theorem parseWidth_reads {turns : Nat} {width found : BitVec 32} {after : Printer}
    (scanned : parseWidth text turns printer width = some (after, found)) :
    printer.reads ⊆ after.reads := by
  induction turns generalizing printer width with
  | zero => cases scanned
  | succ turns ih =>
      simp only [parseWidth] at scanned
      split at scanned
      next => exact List.Subset.trans (List.subset_append_left _ _) (ih scanned)
      next =>
        obtain ⟨rfl, rfl⟩ := Prod.mk.inj (Option.some.inj scanned)
        exact List.subset_append_left _ _

theorem parseLength_reads (text : Nat → BitVec 8) (printer : Printer) :
    printer.reads ⊆ (parseLength text printer).1.reads := by
  have once : printer.reads ⊆ printer.read.reads := List.subset_append_left _ _
  have twice : printer.reads ⊆ printer.read.advance.read.reads :=
    List.Subset.trans once (List.subset_append_left _ _)
  unfold parseLength
  dsimp only
  split
  next => split <;> exact twice
  next => exact once

theorem convert_reads {turns : Nat} {after : Printer}
    (converted : convert text args strings turns printer = some after) :
    printer.reads ⊆ after.reads := by
  simp only [convert, Option.bind_eq_some_iff, Option.map_eq_some_iff, Prod.exists] at converted
  obtain ⟨wide, width, scanned, out, printed, rfl⟩ := converted
  refine List.Subset.trans (parseFlag_reads text printer) ?_
  refine List.Subset.trans (parseWidth_reads scanned) ?_
  refine List.Subset.trans (parseLength_reads text wide) ?_
  exact List.subset_append_left _ _

/-- The place at which a run starts is read. -/
theorem kvprintf_reads {turns : Nat} {final : Printer}
    (run : kvprintf text args strings turns printer = some final) :
    printer.read.reads ⊆ final.reads := by
  induction turns generalizing printer with
  | zero => cases run
  | succ turns ih =>
      simp only [kvprintf] at run
      split at run
      next =>
        rw [← Option.some.inj run]
        exact List.Subset.refl _
      next =>
        split at run
        next =>
          refine List.Subset.trans ?_ (ih run)
          exact List.subset_append_left _ _
        next =>
          obtain ⟨after, converted, later⟩ := Option.bind_eq_some_iff.mp run
          have before : printer.read.advance.reads ⊆ after.reads := convert_reads converted
          refine List.Subset.trans before (List.Subset.trans ?_ (ih later))
          exact List.subset_append_left _ _

theorem kvprintf_nul (here : printer.At text nul []) (turns : Nat) :
    kvprintf text args strings (turns + 1) printer = some printer.read :=
  if_pos here.formats

theorem kvprintf_char {c : BitVec 8} {rest : List (BitVec 8)}
    (here : printer.At text nul (c :: rest)) (visible : c ≠ byte '%') (turns : Nat) :
    kvprintf text args strings (turns + 1) printer =
      kvprintf text args strings turns (printer.read.print (printChar c)).advance := by
  obtain ⟨found, nonzero, _⟩ := here.read.formats
  simp only [kvprintf, found, if_neg nonzero, if_pos visible]

theorem kvprintf_percent {spec : List (BitVec 8)} (here : printer.At text nul (byte '%' :: spec))
    (turns : Nat) :
    kvprintf text args strings (turns + 1) printer =
      (convert text args strings turns printer.read.advance).bind
        (kvprintf text args strings turns) := by
  obtain ⟨found, nonzero, _⟩ := here.read.formats
  simp only [kvprintf, found, if_neg nonzero, ne_eq, not_true_eq_false, if_false]

theorem specOutput_isSome_iff (strings : Word → List (BitVec 8)) (spec : List (BitVec 8))
    (c : BitVec 8) (slot : Word) :
    (specOutput strings spec c slot).isSome ↔ WidthFits c (widthFrom 0 (afterFlag spec))
      (lengthModifier (afterWidth (afterFlag spec))) slot :=
  printConversion_isSome_iff strings c (flagPad_plain spec) _ _ slot

/-- A printable format is run to its end in turns enough for its length. -/
theorem Printable.stays {taken : Nat} (printable : Printable args taken s)
    (here : printer.At text nul s) (ap : printer.ap = taken) (strings : Word → List (BitVec 8))
    {turns : Nat} (enough : s.length < turns) :
    ∃ final, kvprintf text args strings turns printer = some final ∧
      ∀ place ∈ final.reads, place ≤ nul := by
  obtain ⟨turns, rfl⟩ := Nat.exists_eq_add_one_of_ne_zero (Nat.ne_zero_of_lt enough)
  induction printable generalizing printer turns with
  | done taken => exact ⟨printer.read, kvprintf_nul here turns, here.read.reads⟩
  | plain visible later ih =>
      rw [List.length_cons, Nat.add_lt_add_iff_right] at enough
      obtain ⟨turns, rfl⟩ := Nat.exists_eq_add_one_of_ne_zero (Nat.ne_zero_of_lt enough)
      rw [kvprintf_char here visible]
      refine ih ?_ ?_ turns enough
      · exact here.read.advance.congr rfl rfl
      · exact ap
  | @conversion taken spec c rest complete fits later ih =>
      obtain ⟨after, there, sameAp, _, converted⟩ :=
        convert_at here.read.advance args strings turns
      rw [complete] at there
      have shorter := length_afterModifiers_le spec
      have flag := length_afterFlag_le spec
      rw [complete] at shorter
      simp only [List.length_cons] at enough shorter
      have wide := (List.takeWhile_sublist (p := isDigit) (l := afterFlag spec)).length_le
      obtain ⟨out, printed⟩ := Option.isSome_iff_exists.mp
        ((specOutput_isSome_iff strings spec c (args taken)).mpr fits)
      have slot : printer.read.advance.ap = taken := ap
      rw [kvprintf_percent here, converted, if_pos (by omega), there.formats.1, slot, printed]
      obtain ⟨turns, rfl⟩ := Nat.exists_eq_add_one_of_ne_zero (show turns ≠ 0 by omega)
      refine ih ?_ rfl turns (by omega)
      exact there.advance.congr rfl rfl

theorem Printable.of_run {turns : Nat} {final : Printer} (here : printer.At text nul s)
    (run : kvprintf text args strings turns printer = some final)
    (inside : ∀ place ∈ final.reads, place ≤ nul) : Printable args printer.ap s := by
  induction turns generalizing printer s with
  | zero => cases run
  | succ turns ih =>
      cases s with
      | nil => exact .done printer.ap
      | cons c spec =>
          by_cases percent : c = byte '%'
          · subst percent
            obtain ⟨after, there, ap, _, converted⟩ :=
              convert_at here.read.advance args strings turns
            rw [kvprintf_percent here, converted] at run
            obtain ⟨next, moved, later⟩ := Option.bind_eq_some_iff.mp run
            rw [Option.ite_none_right_eq_some] at moved
            obtain ⟨out, printed, rfl⟩ := Option.map_eq_some_iff.mp moved.2
            cases remains : afterModifiers spec with
            | nil =>
                -- the NUL was the conversion character, so the next turn reads beyond it
                rw [remains] at there
                have stop : after.fmt = nul := there.stop
                have beyond := inside (after.fmt + 1) (kvprintf_reads later
                  (List.mem_append_right _ List.mem_cons_self))
                omega
            | cons c rest =>
                rw [remains] at there
                rw [there.formats.1] at printed later
                refine .conversion remains ?_ ?_
                · exact (specOutput_isSome_iff strings spec c _).mp
                    (Option.isSome_of_eq_some printed)
                · refine ih ?_ later
                  exact there.advance.congr rfl rfl
          · rw [kvprintf_char here percent] at run
            have there : (printer.read.print (printChar c)).advance.At text nul spec :=
              here.read.advance.congr rfl rfl
            have later := ih there run
            exact .plain percent later

theorem staysInFormat_iff (here : printer.At text nul s) :
    StaysInFormat text args strings nul printer ↔ Printable args printer.ap s := by
  constructor
  · rintro ⟨turns, final, run, inside⟩
    exact Printable.of_run here run inside
  · intro printable
    obtain ⟨final, run, inside⟩ := printable.stays here rfl strings
      (Nat.lt_add_one s.length)
    exact ⟨s.length + 1, final, run, inside⟩

theorem start_at (holds : Formats text 0 s) : Printer.start.At text s.length s :=
  ⟨holds, Nat.zero_add _, fun _ listed => absurd listed List.not_mem_nil⟩

theorem kvprintf_staysInFormat_iff (holds : Formats text 0 s) (args : Nat → Word)
    (strings : Word → List (BitVec 8)) :
    StaysInFormat text args strings s.length .start ↔ Printable args 0 s :=
  staysInFormat_iff (start_at holds)

/-- What `printk` leaves of a format that starts with a log level. -/
def afterLevel : List (BitVec 8) → List (BitVec 8)
  | first :: second :: third :: rest =>
      if first = byte '<' ∧ (second ≥ byte '0' ∧ second ≤ byte '7') ∧ third = byte '>' then rest
      else first :: second :: third :: rest
  | s => s

theorem Printer.At.ahead (here : printer.At text nul s) {place : Nat} (inside : place ≤ nul) :
    Printer.At text nul s { printer with reads := printer.reads ++ [place] } := by
  refine ⟨here.formats, here.stop, fun other listed => ?_⟩
  rcases List.mem_append.mp listed with before | now
  · exact here.reads other before
  · exact List.mem_singleton.mp now ▸ inside

theorem stripLevel_at (here : printer.At text nul s) :
    (stripLevel text printer).At text nul (afterLevel s) := by
  have stop := here.stop
  have noDigit : ¬((0 : BitVec 8) ≥ byte '0' ∧ (0 : BitVec 8) ≤ byte '7') := by decide
  have noEnd : ¬(0 : BitVec 8) = byte '>' := by decide
  have noStart : ¬(0 : BitVec 8) = byte '<' := by decide
  unfold stripLevel
  dsimp only
  rcases s with - | ⟨first, - | ⟨second, - | ⟨third, rest⟩⟩⟩
  · have none : text printer.fmt = 0 := here.formats
    rw [none, if_neg noStart]
    exact here.read
  · have none : text (printer.fmt + 1) = 0 := here.formats.2.2
    rw [none, if_neg noDigit]
    simp only [List.length_cons] at stop
    split
    next => exact here.read.ahead (by omega)
    next => exact here.read
  · have none : text (printer.fmt + 2) = 0 := here.formats.2.2.2.2
    rw [none, if_neg noEnd]
    simp only [List.length_cons] at stop
    split
    next =>
      split
      next => exact (here.read.ahead (by omega)).ahead (by omega)
      next => exact here.read.ahead (by omega)
    next => exact here.read
  · obtain ⟨found, _, other, _, last, _, formats⟩ := here.formats
    have closing : text (printer.fmt + 2) = third := last
    simp only [List.length_cons] at stop
    have one := here.read.ahead (show printer.fmt + 1 ≤ nul by omega)
    have two := one.ahead (show printer.fmt + 2 ≤ nul by omega)
    rw [found, other, closing, afterLevel]
    by_cases level : first = byte '<' ∧ (second ≥ byte '0' ∧ second ≤ byte '7') ∧ third = byte '>'
    · rw [if_pos level, if_pos level.1, if_pos level.2.1, if_pos level.2.2]
      exact ⟨formats, by simp only; omega, two.reads⟩
    · rw [if_neg level]
      split
      next starts =>
        split
        next digit => rwa [if_neg fun ends => level ⟨starts, digit, ends⟩]
        next => exact one
      next => exact here.read

theorem printk_staysInFormat_iff (holds : Formats text 0 s) (args : Nat → Word)
    (strings : Word → List (BitVec 8)) :
    (∃ turns final, printk text args strings turns = some final ∧
      ∀ place ∈ final.reads, place ≤ s.length) ↔ Printable args 0 (afterLevel s) := by
  have here : ((stripLevel text .start).print (printString (cString "[linux] "))).At text
      s.length (afterLevel s) := (stripLevel_at (start_at holds)).congr rfl rfl
  have ap : (stripLevel text .start).ap = 0 := by
    unfold stripLevel
    dsimp only
    repeat' split
    all_goals rfl
  exact (staysInFormat_iff here).trans (by rw [Printer.print, ap])

/-- The format `"%d"`. -/
theorem kvprintf_staysInFormat_iff_decimal :
    StaysInFormat (textOf [byte '%', byte 'd']) (fun _ => 5) (fun _ => []) 2 .start :=
  (kvprintf_staysInFormat_iff (formats_textOf [] (s := [byte '%', byte 'd']) (by decide)) _ _).mpr
    (.conversion rfl (fun _ => by decide) (.done _))

/-- The format `"%"`. -/
theorem kvprintf_leavesFormat :
    Formats (textOf [byte '%']) 0 [byte '%'] ∧
      ¬StaysInFormat (textOf [byte '%']) (fun _ => 0) (fun _ => []) 1 .start := by
  have holds : Formats (textOf [byte '%']) 0 [byte '%'] := formats_textOf [] (by decide)
  refine ⟨holds, fun stays => ?_⟩
  have printable : Printable (fun _ => 0) 0 [byte '%'] :=
    (staysInFormat_iff (start_at holds)).mp stays
  cases printable with
  | plain visible _ => exact visible rfl
  | conversion complete _ _ => cases complete

end Run

end DragoonKernel
