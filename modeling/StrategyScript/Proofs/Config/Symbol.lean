/-
The symbol of a run and the file of its bars. A symbol that comes from a configuration in order is the plain name of a
file, so the bars are read right inside the data directory. A symbol from the command line goes before it and is
only trimmed, so the run has a plain name exactly if the command line gives one or leaves it to the configuration.
-/
import StrategyScript.Proofs.Config.Settings
import StrategyScript.Command.Basic
import Mathlib.Data.List.DropRight

namespace StrategyScript

/-! ## Trimming -/

namespace Text

/-- Nothing is trimmed at the start of what was trimmed there before and is cut off at its end. -/
theorem trimStart_of_isPrefix {cs s : List Char} (h : cs <+: trimStart s) : trimStart cs = cs := by
  cases cs with
  | nil => rfl
  | cons c cs =>
    obtain ⟨rest, hrest⟩ := h
    have hhead := List.head?_dropWhile_not isBlank s
    rw [show s.dropWhile isBlank = c :: (cs ++ rest) from hrest.symm] at hhead
    exact List.dropWhile_cons_of_neg (by simpa using hhead)

theorem trim_trim (s : String) : trim (trim s) = trim s := by
  have hprefix : trimEnd (trimStart s.toList) <+: trimStart s.toList := List.rdropWhile_prefix isBlank _
  unfold trim
  rw [String.toList_ofList, trimStart_of_isPrefix hprefix]
  exact congrArg String.ofList (List.rdropWhile_idempotent isBlank _)

end Text

namespace Config

variable {config : Option Document} {o : Overrides} {s : Settings} {symbol dir : String}

/-! ## Plain names -/

/-- The name of a file, without its extension, that leads to no other directory and is not hidden. -/
structure IsStem (symbol : String) : Prop where
  ne_empty : symbol ≠ ""
  no_slash : '/' ∉ symbol.toList
  no_backslash : '\\' ∉ symbol.toList
  not_hidden : symbol.toList.head? ≠ some '.'

theorem isStem_iff : IsStem symbol ↔ symbol ≠ "" ∧ isPlainStem symbol = true := by
  have hplain : isPlainStem symbol = true ↔
      ('/' ∉ symbol.toList ∧ '\\' ∉ symbol.toList) ∧ symbol.toList.head? ≠ some '.' := by
    unfold isPlainStem
    simp only [Bool.and_eq_true, Bool.not_eq_true', List.any_eq_false, Bool.or_eq_true, decide_eq_true_eq, bne_iff_ne]
    refine and_congr_left fun _ => ?_
    constructor
    · intro h
      exact ⟨fun hc => h _ hc (.inl rfl), fun hc => h _ hc (.inr rfl)⟩
    · rintro ⟨hslash, hbackslash⟩ c hc (rfl | rfl)
      · exact hslash hc
      · exact hbackslash hc
  rw [hplain]
  constructor
  · rintro ⟨hempty, hslash, hbackslash, hhidden⟩
    exact ⟨hempty, ⟨hslash, hbackslash⟩, hhidden⟩
  · rintro ⟨hempty, ⟨hslash, hbackslash⟩, hhidden⟩
    exact ⟨hempty, hslash, hbackslash, hhidden⟩

theorem isStem_of_checkSymbol {d : Document} (h : d.checkSymbol = .ok ())
    (hs : d.string? "data" "symbol" = some symbol) : IsStem symbol := by
  unfold Document.checkSymbol at h
  rw [hs] at h
  dsimp only at h
  split at h
  · cases h
  · rename_i hempty
    split at h
    · rename_i hplain
      exact isStem_iff.2 ⟨hempty, hplain⟩
    · cases h

theorem checkSymbol_of_validate {d : Document} (h : d.validate = .ok ()) : d.checkSymbol = .ok () := by
  obtain ⟨_, -, h⟩ := bind_eq_ok h
  obtain ⟨_, -, h⟩ := bind_eq_ok h
  obtain ⟨_, -, h⟩ := bind_eq_ok h
  obtain ⟨_, hcheck, -⟩ := bind_eq_ok h
  exact hcheck

/-! ## The symbol of a run -/

theorem symbol_of_settings (h : settings config o = .ok s) :
    ∃ symbol, (o.symbol <|> stringIn config "data" "symbol") = some symbol ∧ s.symbol = Text.trim symbol := by
  obtain ⟨_, -, h⟩ := bind_eq_ok h
  obtain ⟨symbol, hsymbol, h⟩ := bind_eq_ok h
  obtain ⟨_, -, h⟩ := bind_eq_ok h
  obtain ⟨_, -, h⟩ := bind_eq_ok h
  cases h
  cases hv : o.symbol <|> stringIn config "data" "symbol" with
  | none =>
    rw [hv] at hsymbol
    cases hsymbol
  | some v =>
    rw [hv] at hsymbol
    cases hsymbol
    exact ⟨symbol, rfl, rfl⟩

/-- What a configuration in order gives is trimmed already, and held against the form of a plain name. -/
theorem isStem_of_config (hvalid : ∀ d ∈ config, d.validate = .ok ())
    (h : stringIn config "data" "symbol" = some symbol) : IsStem (Text.trim symbol) := by
  obtain ⟨d, hd, hstring⟩ := Option.bind_eq_some_iff.1 h
  obtain ⟨value, -, rfl⟩ := Option.map_eq_some_iff.1 hstring
  rw [Text.trim_trim]
  exact isStem_of_checkSymbol (checkSymbol_of_validate (hvalid d hd)) hstring

/-! ## The file of the bars -/

/-- The path leads to a file right inside the directory: behind the directory and one slash it is a name. -/
def RightInside (dir path : String) : Prop :=
  ∃ name : String, '/' ∉ name.toList ∧ name ≠ "." ∧ name ≠ ".." ∧
    path = (if dir = "" ∨ dir.endsWith "/" then dir else dir ++ "/") ++ name

theorem IsStem.not_mem_csv (h : IsStem symbol) : '/' ∉ (symbol ++ ".csv").toList := by
  rw [String.toList_append, List.mem_append, not_or]
  exact ⟨h.no_slash, by decide⟩

theorem IsStem.rightInside (h : IsStem symbol) (dir : String) : RightInside dir (Command.barsPath dir symbol) := by
  have hslash := h.not_mem_csv
  have hstart : ¬ (symbol ++ ".csv").startsWith "/" := by
    intro hstart
    rw [String.startsWith_string_iff] at hstart
    exact hslash (hstart.subset (by simp))
  have hlong : 4 < (symbol ++ ".csv").length := by
    rw [String.length_append]
    have hpos := String.length_eq_zero_iff.not.2 h.ne_empty
    have hcsv : (".csv" : String).length = 4 := by decide
    omega
  refine ⟨symbol ++ ".csv", hslash, ?_, ?_, ?_⟩
  · intro hname
    rw [hname] at hlong
    exact absurd hlong (by decide)
  · intro hname
    rw [hname] at hlong
    exact absurd hlong (by decide)
  · unfold Command.barsPath joinPath
    rw [if_neg hstart]
    split <;> rfl

/-! ## Main statement -/

/-- With a configuration that is in order, or with none, the symbol of a run is a plain name exactly if the command
line, where it gives one, gives a plain name; and the bars of a plain name are read right inside the data
directory. -/
theorem symbol_isStem_iff (config : Option Document) (o : Overrides) (hvalid : ∀ d ∈ config, d.validate = .ok ())
    (s : Settings) (h : settings config o = .ok s) :
    (IsStem s.symbol ↔ ∀ symbol, o.symbol = some symbol → IsStem (Text.trim symbol)) ∧
      (IsStem s.symbol → RightInside s.dataDir (Command.barsPath s.dataDir s.symbol)) := by
  refine ⟨?_, fun hstem => hstem.rightInside s.dataDir⟩
  obtain ⟨symbol, hsymbol, htrim⟩ := symbol_of_settings h
  rw [htrim]
  cases ho : o.symbol with
  | some given =>
    rw [ho] at hsymbol
    cases hsymbol
    constructor
    · rintro hstem _ ⟨⟩
      exact hstem
    · intro hgiven
      exact hgiven symbol rfl
  | none =>
    rw [ho] at hsymbol
    have hstem := isStem_of_config hvalid hsymbol
    exact ⟨fun _ => nofun, fun _ => hstem⟩

/-- A symbol with blanks around it on the command line, in place of that of the configuration. -/
theorem given_symbol_isStem :
    let d : Document := ⟨.ofList [("data", .ofList [("dir", some "prices"), ("symbol", some "BHP")])]⟩
    Document.read "[data]\ndir = prices\nsymbol = BHP\n" = .ok d ∧ d.validate = .ok () ∧
      ∃ s, settings (some d) { script := some "s.vs", symbol := some " CBA " } = .ok s ∧ s.symbol = "CBA" ∧
        IsStem s.symbol ∧ RightInside s.dataDir (Command.barsPath s.dataDir s.symbol) := by
  intro d
  have hvalid : d.validate = .ok () := rfl
  have hconfig : ∀ e ∈ some d, e.validate = .ok () := by
    rintro _ ⟨⟩
    exact hvalid
  have hs : settings (some d) { script := some "s.vs", symbol := some " CBA " } =
      .ok ⟨"s.vs", "prices", "CBA", none, ⟨none, 64⟩, false⟩ := rfl
  obtain ⟨hiff, hinside⟩ := symbol_isStem_iff (some d) _ hconfig _ hs
  have hstem := hiff.2 <| by
    rintro _ ⟨⟩
    exact ⟨by decide, by decide, by decide, by decide⟩
  exact ⟨rfl, hvalid, _, hs, rfl, hstem, hinside hstem⟩

/-- The command line leads the run to a file outside of the data directory, though the configuration is in order. -/
theorem symbol_outside_directory :
    let d : Document := ⟨.ofList [("data", .ofList [("dir", some "prices"), ("symbol", some "BHP")])]⟩
    Document.read "[data]\ndir = prices\nsymbol = BHP\n" = .ok d ∧ d.validate = .ok () ∧
      ∃ s, settings (some d) { script := some "s.vs", symbol := some "../BHP" } = .ok s ∧ ¬ IsStem s.symbol ∧
        ¬ RightInside s.dataDir (Command.barsPath s.dataDir s.symbol) := by
  intro d
  have hs : settings (some d) { script := some "s.vs", symbol := some "../BHP" } =
      .ok ⟨"s.vs", "prices", "../BHP", none, ⟨none, 64⟩, false⟩ := rfl
  refine ⟨rfl, rfl, _, hs, fun hstem => hstem.no_slash (by decide), ?_⟩
  rintro ⟨name, hslash, -, -, hpath⟩
  have hdir : ¬ (("prices" : String) = "" ∨ ("prices" : String).endsWith "/" = true) := by decide +kernel
  have hgiven : Command.barsPath "prices" "../BHP" = "prices/../BHP.csv" := by decide +kernel
  dsimp only at hpath
  rw [if_neg hdir, hgiven] at hpath
  have hlist := congrArg String.toList hpath
  rw [String.toList_append] at hlist
  change "prices/".toList ++ "../BHP.csv".toList = "prices/".toList ++ name.toList at hlist
  exact hslash (List.append_cancel_left hlist ▸ by decide)

end Config

end StrategyScript
