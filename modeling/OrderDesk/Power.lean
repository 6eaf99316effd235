/-!
# Powers

Powers with whole exponents. The instance below comes before all others, so that `2 ^ 160` is the
same expression in every module, whichever other powers the module knows of.
-/

attribute [instance (100000), default_instance (100000)] instPowNat
