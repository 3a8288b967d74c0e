import TouchGame.Number.Text

/-!
# Limits

The numeric limits of a rule-set's fields. Checks and repairs share them, so a repaired value passes
its check.
-/

namespace TouchGame.Limits

def zero : Number := .thousandths 0

def one : Number := .thousandths 1000

def slowest : Number := .thousandths 500

def fastest : Number := .thousandths 15000

def longestTime : Number := .thousandths 60000

def longestInterval : Number := .thousandths 10000

def longestEffect : Number := .thousandths 5000

def largestAmount : Number := .thousandths 3000

def largestScale : Number := .thousandths 3000

def leastPositive : Number := .thousandths 100

end TouchGame.Limits
